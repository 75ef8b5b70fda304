import Mathlib.Data.List.TakeDrop
import Refinery.Inference.Stream
import Refinery.Proofs.Json.Quoted
import Refinery.Proofs.Text.Parts
import Refinery.Proofs.Text.Trim

/-!
Fragments over a stream. A server sends each fragment in a line of its own, as JSON in which only
ASCII appears, and a line that ends the stream. Read back, the stream yields the fragments that are
not empty, in order, up to the first one that spells the mark of the end; it loses fragments exactly
where there is one that does.
-/

namespace Refinery.Inference

open Text

/-- What a server sends of a fragment. -/
def payloadOf (t : Text) : Json := .mkObj [("choices", .arr [.mkObj [("text", .str t)]])]

def dataLine (t : Text) : Text := "data: ".toList ++ (payloadOf t).print

def doneLine : Text := "data: ".toList ++ Line.endText

/-- These lines send these fragments: one line for each of them in order, blank lines anywhere
before the line that ends the stream, and whatever after it. -/
inductive Encodes : List Text → List Text → Prop
  | done (later : List Text) : Encodes [] (doneLine :: later)
  | blank {ts ls : List Text} {l : Text} (hl : Text.blank l = true) (h : Encodes ts ls) :
      Encodes ts (l :: ls)
  | data {ts ls : List Text} (t : Text) (h : Encodes ts ls) : Encodes (t :: ts) (dataLine t :: ls)

theorem readsBack_payloadOf (t : Text) : Json.ReadsBack 7 (payloadOf t) :=
  ((((Json.readsBack_str t).obj "text".toList).arr).obj "choices".toList)

theorem payload_payloadOf (t : Text) :
    Line.payload (payloadOf t) = .ok (if t = [] then none else some (.text t)) := by
  cases t with
  | nil => rfl
  | cons c t => rfl

theorem read_dataLine (t : Text) : Line.read (dataLine t) = .ok (if t = [] then .nothing
    else if t = Line.endText then .endMark else .fragment (.text t)) := by
  have hprint : ∃ u, (payloadOf t).print = '\x7b' :: (u ++ ['\x7d']) := ⟨_, rfl⟩
  obtain ⟨u, hu⟩ := hprint
  have hbrace : (payloadOf t).print ≠ Line.endText := by
    rw [hu]
    exact fun h => absurd (List.cons.inj h).1 (by decide)
  have hline : trim (dataLine t) = Line.dataLead ++ ' ' :: (payloadOf t).print := by
    show trim ("data: ".toList ++ (payloadOf t).print) = _
    rw [hu]
    exact trim_between (c := 'd') (d := '\x7d') rfl rfl ("ata: \x7b".toList ++ u)
  have hrest : trim (' ' :: (payloadOf t).print) = (payloadOf t).print := by
    have hblank : isBlank ' ' = true := rfl
    rw [trim_cons_of_isBlank _ hblank, hu]
    exact trim_between rfl rfl u
  rw [Line.read, hline, after?_append]
  simp only [hrest, beq_iff_eq, if_neg hbrace, (readsBack_payloadOf t).read, payload_payloadOf]
  by_cases ht : t = []
  · simp only [if_pos ht]
    rfl
  · simp only [if_neg ht]
    by_cases hend : t = Line.endText
    · simp only [Except.map, hend, if_true]
    · simp only [Except.map, hend, if_false]

theorem read_doneLine : Line.read doneLine = .ok .endMark := by
  rfl

theorem read_blank {l : Text} (h : Text.blank l = true) : Line.read l = .ok .nothing := by
  rw [Line.read, trim_eq_nil_iff.2 h]
  rfl

/-- The fragments that come through: those that are not empty, up to the first one that spells the
mark of the end. -/
def shown (ts : List Text) : List Text :=
  (ts.takeWhile (· ≠ Line.endText)).filter (· ≠ [])

theorem shown_empty (ts : List Text) : shown ([] :: ts) = shown ts := rfl

theorem shown_endText (ts : List Text) : shown (Line.endText :: ts) = [] := rfl

theorem shown_cons {t : Text} (ht : t ≠ []) (hend : t ≠ Line.endText) (ts : List Text) :
    shown (t :: ts) = t :: shown ts := by
  rw [shown, List.takeWhile_cons_of_pos (by simpa using hend),
    List.filter_cons_of_pos (by simpa using ht), shown]

theorem length_shown_le (ts : List Text) : (shown ts).length ≤ ts.length :=
  (List.length_filter_le _ _).trans (List.takeWhile_prefix _).length_le

theorem endText_not_mem_takeWhile (ts : List Text) :
    Line.endText ∉ ts.takeWhile (· ≠ Line.endText) := by
  intro hmem
  have hend := List.mem_takeWhile_imp hmem
  simp at hend

/-- All fragments that are not empty come through unless one spells the mark of the end. -/
theorem shown_eq_filter_iff {ts : List Text} :
    shown ts = ts.filter (· ≠ []) ↔ Line.endText ∉ ts := by
  constructor
  · intro h hmem
    have hfilter : Line.endText ∈ ts.filter (· ≠ []) := List.mem_filter.2 ⟨hmem, by decide⟩
    rw [← h] at hfilter
    exact endText_not_mem_takeWhile ts (List.mem_filter.1 hfilter).1
  · intro h
    have hall : ts.takeWhile (· ≠ Line.endText) = ts :=
      List.takeWhile_eq_self_iff.2 fun t ht => by
        simp only [decide_eq_true_eq]
        exact fun heq => h (heq ▸ ht)
    rw [shown, hall]

theorem flatten_shown (ts : List Text) :
    (shown ts).flatten = (ts.takeWhile (· ≠ Line.endText)).flatten :=
  List.flatten_filter_ne_nil

/-- Nor does their text come through whole. -/
theorem flatten_shown_eq_iff {ts : List Text} :
    (shown ts).flatten = ts.flatten ↔ Line.endText ∉ ts := by
  constructor
  · intro h hmem
    have hsplit := List.takeWhile_append_dropWhile (p := (· ≠ Line.endText)) (l := ts)
    have hflat : (ts.takeWhile (· ≠ Line.endText)).flatten ++
        (ts.dropWhile (· ≠ Line.endText)).flatten = ts.flatten := by
      rw [← List.flatten_append, hsplit]
    rw [flatten_shown, ← hflat, List.self_eq_append_right, List.flatten_eq_nil_iff] at h
    rw [← hsplit, List.mem_append] at hmem
    have hend := h _ (hmem.resolve_left (endText_not_mem_takeWhile ts))
    exact absurd hend (by decide)
  · intro h
    rw [shown_eq_filter_iff.2 h]
    exact List.flatten_filter_ne_nil

theorem join_map_text (index : Nat) (ts : List Text) :
    Fragment.join index (ts.map .text) = .ok ts.flatten := by
  induction ts generalizing index with
  | nil => rfl
  | cons t ts ih =>
      rw [List.map_cons, Fragment.join, ih]
      rfl

/-! ### Reading a stream -/

/-- The text of an answer that is a fragment. -/
def Pull.text? : Pull → Option Text
  | .fragment (.text t) => some t
  | _ => none

/-- A stream that is read: what was delivered and is not looked at yet, whether nothing more will be
delivered, and the answers so far. -/
structure Reading where
  stream : Stream := {}
  queue : List Delivery := []
  complete : Bool := false
  answers : List Pull := []

namespace Reading

inductive Move where
  | deliver (d : Delivery)
  | finish
  | pull
  | cancel

def Move.isPull : Move → Bool
  | pull => true
  | _ => false

def next (r : Reading) : Move → Reading
  | .deliver d => { r with queue := r.queue ++ [d] }
  | .finish => { r with complete := true }
  | .pull =>
    let (s, answer, queue) := r.stream.pull r.complete r.queue
    { r with stream := s, queue := queue, answers := r.answers ++ [answer] }
  | .cancel => { r with stream := r.stream.cancel.1 }

def after (r : Reading) (ms : List Move) : Reading := ms.foldl next r

def texts (r : Reading) : List Text := r.answers.filterMap Pull.text?

/-- What is left of some lines when these moves have delivered them in order. Nothing is delivered
after the last of them, the delivery is finished only then, and nobody cancels. -/
def unsent : List Text → List Move → Option (List Text)
  | ls, [] => some ls
  | l :: ls, .deliver (.line l') :: ms => if l' = l then unsent ls ms else none
  | [], .finish :: ms => unsent [] ms
  | ls, .pull :: ms => unsent ls ms
  | _, _ => none

theorem unsent_cons (ls : List Text) (m : Move) (ms : List Move) :
    unsent ls (m :: ms) = (unsent ls [m]).bind fun rest => unsent rest ms := by
  cases m with
  | deliver d =>
      cases d with
      | line l' =>
          cases ls with
          | nil => rfl
          | cons l ls =>
              simp only [unsent]
              split <;> rfl
      | broken message => cases ls <;> rfl
  | finish => cases ls <;> rfl
  | pull => cases ls <;> rfl
  | cancel => cases ls <;> rfl

theorem eq_nil_of_unsent {m : Move} {rest : List Text} (h : unsent [] [m] = some rest) :
    rest = [] := by
  cases m with
  | deliver d => cases d <;> cases h
  | finish => exact (Option.some.inj h).symm
  | pull => exact (Option.some.inj h).symm
  | cancel => cases h

variable {r : Reading} {s : Stream} {complete : Bool} {all ts ls rest rest' : List Text} {m : Move}
  {ms : List Move}

/-- What a stream can answer while what is left of its lines sends these fragments. -/
inductive Answers (s : Stream) (ts rest : List Text) : Stream × Pull × List Delivery → Prop
  | waits {ts' : List Text} (h : Encodes ts' rest) (hshown : shown ts = shown ts') :
      Answers s ts rest (s, .waiting, [])
  | yields {t : Text} {ts' ls : List Text} (h : Encodes ts' (ls ++ rest))
      (hshown : shown ts = t :: shown ts') :
      Answers s ts rest ({ s with yielded := s.yielded ++ [.text t] }, .fragment (.text t),
        ls.map .line)
  | ends (hshown : shown ts = []) (queue : List Delivery) :
      Answers s ts rest ((s.close .ended).1, (s.close .ended).2, queue)

theorem Answers.congr {ts' : List Text} {x : Stream × Pull × List Delivery}
    (h : Answers s ts' rest x) (hshown : shown ts = shown ts') : Answers s ts rest x := by
  cases h with
  | waits h hshown' => exact .waits h (hshown.trans hshown')
  | yields h hshown' => exact .yields h (hshown.trans hshown')
  | ends hshown' queue => exact .ends (hshown.trans hshown') queue

/-- **Going through the lines.** -/
theorem answers_advance (hs : s.cancelled = false) (h : Encodes ts (ls ++ rest))
    (hcomplete : complete = true → rest = []) :
    Answers s ts rest (s.advance complete (ls.map .line)) := by
  induction ls generalizing ts with
  | nil =>
      cases hc : complete with
      | true =>
          rw [List.nil_append, hcomplete hc] at h
          cases h
      | false => exact .waits h rfl
  | cons l ls ih =>
      rw [List.cons_append] at h
      have hgo : ¬ s.cancelled = true := by simp [hs]
      rw [List.map_cons, Stream.advance, if_neg hgo]
      cases h with
      | done later =>
          simp only [read_doneLine]
          exact .ends rfl _
      | blank hl h =>
          simp only [read_blank hl]
          exact ih h
      | @data ts _ t h =>
          rw [read_dataLine]
          by_cases ht : t = []
          · subst ht
            exact (ih h).congr (shown_empty ts)
          by_cases hend : t = Line.endText
          · subst hend
            exact .ends (shown_endText ts) _
          · simp only [if_neg ht, if_neg hend]
            exact .yields h (shown_cons ht hend ts)

/-- The stream is open; of all fragments that were sent, these are left. -/
structure Open (all ts rest : List Text) (r : Reading) : Prop where
  going : r.stream.cancelled = false
  opened : r.stream.closed = false
  result : r.stream.result = none
  yielded : r.stream.yielded = r.texts.map .text
  queue : ∃ ls, r.queue = ls.map .line ∧ Encodes ts (ls ++ rest)
  complete : r.complete = true → rest = []
  texts : r.texts ++ shown ts = shown all
  unfailing : ∀ why, .failed why ∉ r.answers

/-- The stream is at its end, and all fragments have come through that do. -/
structure Closed (all : List Text) (r : Reading) : Prop where
  closed : r.stream.closed = true
  texts : r.texts = shown all
  result : r.stream.result = some (shown all).flatten
  unfailing : ∀ why, .failed why ∉ r.answers

theorem texts_append_answer (r : Reading) (answer : Pull) (s : Stream) (queue : List Delivery) :
    texts { r with stream := s, queue := queue, answers := r.answers ++ [answer] } =
      r.texts ++ answer.text?.toList := by
  rw [texts, texts, List.filterMap_append]
  cases h : answer.text? <;> simp [h]

/-- A stream that has yielded texts and comes to its end has their concatenation as its result. -/
theorem close_of_texts (hyielded : s.yielded = ts.map .text) (hresult : ∀ t ∈ s.result, t = ts.flatten)
    (how : Pull) : s.close how = ({ s with closed := true, result := some ts.flatten }, how) := by
  unfold Stream.close Stream.resolve
  cases hr : s.result with
  | none =>
      simp only [hyielded, join_map_text]
      rfl
  | some t =>
      obtain rfl := hresult t hr
      simp only

/-- **An open stream that is asked goes on to its next fragment, waits, or ends**; it does not wait
when everything was delivered. -/
theorem Open.pull (h : Open all ts rest r) : Closed all (r.next .pull) ∨
    ∃ ts', Open all ts' rest (r.next .pull) ∧
      (rest = [] → (shown ts').length < (shown ts).length) := by
  obtain ⟨ls, hqueue, hencodes⟩ := h.queue
  have hanswers := answers_advance h.going hencodes h.complete
  have hnext : ∀ x, r.stream.advance r.complete (ls.map .line) = x → r.next .pull =
      { r with stream := x.1, queue := x.2.2, answers := r.answers ++ [x.2.1] } := by
    rintro x rfl
    simp only [next, Stream.pull, h.opened, hqueue]
    rfl
  generalize hx : r.stream.advance r.complete (ls.map .line) = x at hanswers
  rw [hnext x hx]
  cases hanswers with
  | waits hwaits hshown =>
      have htexts := texts_append_answer r .waiting r.stream []
      refine Or.inr ⟨_, ⟨h.going, h.opened, h.result, ?_, ⟨[], rfl, hwaits⟩, h.complete, ?_, ?_⟩,
        fun hrest => ?_⟩
      · rw [htexts]
        simpa [Pull.text?] using h.yielded
      · rw [htexts, ← hshown]
        simpa [Pull.text?] using h.texts
      · simpa using h.unfailing
      · subst hrest
        cases hwaits
  | @yields t ts' ls' hyields hshown =>
      have htexts := texts_append_answer r (.fragment (.text t))
        { r.stream with yielded := r.stream.yielded ++ [.text t] } (ls'.map .line)
      refine Or.inr ⟨ts', ⟨h.going, h.opened, h.result, ?_, ⟨ls', rfl, hyields⟩, h.complete, ?_,
        ?_⟩, fun _ => ?_⟩
      · rw [htexts]
        simp [Pull.text?, h.yielded]
      · rw [htexts, ← h.texts, hshown]
        simp [Pull.text?]
      · simpa using h.unfailing
      · simp [hshown]
  | ends hshown queue =>
      have hall : r.texts = shown all := by
        rw [← h.texts, hshown, List.append_nil]
      rw [close_of_texts h.yielded (by simp [h.result])]
      have htexts := texts_append_answer r .ended
        { r.stream with closed := true, result := some r.texts.flatten } queue
      refine Or.inl ⟨rfl, ?_, by rw [hall], ?_⟩
      · rw [htexts]
        simpa [Pull.text?] using hall
      · simpa using h.unfailing

theorem Open.deliver (h : Open all ts rest r) {d : Delivery}
    (hm : unsent rest [.deliver d] = some rest') : Open all ts rest' (r.next (.deliver d)) := by
  match rest, d, hm with
  | l :: rest, .line l', hm =>
      simp only [unsent] at hm
      split at hm
      · next heq =>
          cases heq
          cases hm
          obtain ⟨ls, hqueue, hencodes⟩ := h.queue
          refine ⟨h.going, h.opened, h.result, h.yielded, ⟨ls ++ [l], ?_, ?_⟩, fun hcomplete => ?_,
            h.texts, h.unfailing⟩
          · simp [Reading.next, hqueue]
          · rwa [List.append_assoc, List.singleton_append]
          · exact absurd (h.complete hcomplete) (List.cons_ne_nil l _)
      · cases hm

/-- What was sent keeps coming through until the stream is at its end. -/
theorem Open.next (h : Open all ts rest r) (hm : unsent rest [m] = some rest') :
    Closed all (r.next m) ∨ ∃ ts', Open all ts' rest' (r.next m) ∧
      (rest = [] → [m].countP Move.isPull + (shown ts').length ≤ (shown ts).length) := by
  cases m with
  | deliver d =>
      refine Or.inr ⟨ts, h.deliver hm, fun hrest => ?_⟩
      simp [Move.isPull]
  | finish =>
      match rest, hm with
      | [], hm =>
          cases hm
          exact Or.inr ⟨ts, ⟨h.going, h.opened, h.result, h.yielded, h.queue, fun _ => rfl, h.texts,
            h.unfailing⟩, fun _ => by simp [Move.isPull]⟩
  | pull =>
      obtain rfl : rest = rest' := by
        cases rest <;> exact Option.some.inj hm
      rcases h.pull with hclosed | ⟨ts', hopen, hless⟩
      · exact Or.inl hclosed
      · refine Or.inr ⟨ts', hopen, fun hrest => ?_⟩
        have hlt := hless hrest
        simp only [List.countP_singleton, Move.isPull, if_true]
        omega
  | cancel => cases rest <;> cases hm

theorem Closed.next (h : Closed all r) (hm : unsent rest [m] = some rest') :
    Closed all (r.next m) := by
  cases m with
  | deliver d => exact ⟨h.closed, h.texts, h.result, h.unfailing⟩
  | finish => exact ⟨h.closed, h.texts, h.result, h.unfailing⟩
  | pull =>
      have hpull : r.next .pull =
          { r with stream := r.stream, queue := r.queue, answers := r.answers ++ [.ended] } := by
        simp only [Reading.next, Stream.pull, h.closed, if_true]
      rw [hpull]
      refine ⟨h.closed, ?_, h.result, by simpa using h.unfailing⟩
      rw [texts_append_answer]
      simpa [Pull.text?] using h.texts
  | cancel => cases rest <;> cases hm

theorem Closed.after (h : Closed all r) (hms : unsent rest ms = some rest') :
    Closed all (r.after ms) := by
  induction ms generalizing r rest with
  | nil => exact h
  | cons m ms ih =>
      rw [unsent_cons, Option.bind_eq_some_iff] at hms
      obtain ⟨rest₁, hm, hms⟩ := hms
      exact ih (h.next hm) hms

/-- **Reading on.** Once everything was delivered, each time that the stream is asked brings it
nearer to its end. -/
theorem Open.after (h : Open all ts rest r) (hms : unsent rest ms = some rest') :
    Closed all (r.after ms) ∨ ∃ ts', Open all ts' rest' (r.after ms) ∧
      (rest = [] → ms.countP Move.isPull + (shown ts').length ≤ (shown ts).length) := by
  induction ms generalizing r rest ts with
  | nil =>
      cases hms
      exact Or.inr ⟨ts, h, fun _ => by simp⟩
  | cons m ms ih =>
      rw [unsent_cons, Option.bind_eq_some_iff] at hms
      obtain ⟨rest₁, hm, hms⟩ := hms
      rcases h.next hm with hclosed | ⟨ts₁, hopen, hless₁⟩
      · exact Or.inl (hclosed.after hms)
      · rcases ih hopen hms with hclosed | ⟨ts₂, hopen₂, hless₂⟩
        · exact Or.inl hclosed
        · refine Or.inr ⟨ts₂, hopen₂, fun hrest => ?_⟩
          have hfirst := hless₁ hrest
          have hlater := hless₂ (eq_nil_of_unsent (hrest ▸ hm))
          rw [← List.singleton_append, List.countP_append]
          omega

theorem open_start (h : Encodes ts ls) : Open ts ts ls {} where
  going := rfl
  opened := rfl
  result := rfl
  yielded := rfl
  queue := ⟨[], rfl, h⟩
  complete := nofun
  texts := rfl
  unfailing := fun _ => List.not_mem_nil

theorem after_append (r : Reading) (ms ns : List Move) :
    r.after (ms ++ ns) = (r.after ms).after ns := List.foldl_append

/-- **What comes through of the fragments that a server sends.** Their lines are delivered in order,
however slowly, and the stream is asked for one fragment after the other, and often enough once all
lines are there. Then it is at its end and no answer was a failure; the fragments that were yielded
are those that are not empty, in order, up to the first one that spells the mark of the end, and its
result is their concatenation. So all fragments come through, and the result is the concatenation of
them all, exactly if none spells that mark. -/
theorem fragments_come_through_iff {early late : List Move} (h : Encodes ts ls)
    (hearly : unsent ls early = some []) (hlate : unsent [] late = some [])
    (hpulls : ts.length < late.countP Move.isPull) :
    let r := Reading.after {} (early ++ late)
    r.stream.closed = true ∧ (∀ why, .failed why ∉ r.answers) ∧
      r.texts = shown ts ∧ r.stream.result = some (shown ts).flatten ∧
      (r.texts = ts.filter (· ≠ []) ↔ Line.endText ∉ ts) ∧
      (r.stream.result = some ts.flatten ↔ Line.endText ∉ ts) := by
  intro r
  have hclosed : Closed ts r := by
    have hr : r = (Reading.after {} early).after late := after_append _ early late
    rw [hr]
    rcases (open_start h).after hearly with hclosed | ⟨ts₁, hopen, -⟩
    · exact hclosed.after hlate
    · rcases hopen.after hlate with hclosed | ⟨ts₂, -, hless⟩
      · exact hclosed
      · have hlength := congrArg List.length hopen.texts
        have hshown := length_shown_le ts
        have hcount := hless rfl
        rw [List.length_append] at hlength
        omega
  refine ⟨hclosed.closed, hclosed.unfailing, hclosed.texts, hclosed.result, ?_, ?_⟩
  · rw [hclosed.texts, shown_eq_filter_iff]
  · rw [hclosed.result, Option.some.injEq, flatten_shown_eq_iff]

/-- Two fragments and an empty one, with quotes, a line end and a character above U+FFFF; the first
line is asked for before the others are there. -/
theorem two_fragments_come_through :
    let ts : List Text := ["say \x22hi\x22\n".toList, [], [Char.ofNat 0x1F600]]
    let lines : List Text := [dataLine "say \x22hi\x22\n".toList, [], dataLine [],
      dataLine [Char.ofNat 0x1F600], doneLine]
    let early : List Move := .deliver (.line (dataLine "say \x22hi\x22\n".toList)) :: .pull ::
      .pull :: lines.tail.map fun l => .deliver (.line l)
    let r := Reading.after {} (early ++ [.finish, .pull, .pull, .pull, .pull])
    r.texts = ["say \x22hi\x22\n".toList, [Char.ofNat 0x1F600]] ∧
      r.stream.result = some ts.flatten := by
  intro ts lines early
  have hencodes : Encodes ts lines := .data _ (.blank rfl (.data _ (.data _ (.done []))))
  have hearly : unsent lines early = some [] := by decide +kernel
  have hlate : unsent [] [.finish, .pull, .pull, .pull, .pull] = some [] := rfl
  have hmark : Line.endText ∉ ts := by decide +kernel
  have hshown : shown ts = ["say \x22hi\x22\n".toList, [Char.ofNat 0x1F600]] := by decide +kernel
  have hread := fragments_come_through_iff hencodes hearly hlate (by decide)
  dsimp only at hread ⊢
  obtain ⟨-, -, htexts, -, -, hresult⟩ := hread
  have hwhole := hresult.2 hmark
  refine ⟨?_, hwhole⟩
  exact htexts.trans hshown

/-- A fragment that spells the mark of the end, and all that was sent after it, is lost. -/
theorem marking_fragment_ends_stream :
    let ts : List Text := ["a".toList, "[DONE]".toList, "b".toList]
    let lines : List Text := ts.map dataLine ++ [doneLine]
    let r := Reading.after {} (lines.map (fun l => .deliver (.line l)) ++
      [.pull, .pull, .pull, .pull])
    Encodes ts lines ∧ r.stream.closed = true ∧ r.texts = ["a".toList] ∧
      r.stream.result = some "a".toList ∧ r.texts ≠ ts.filter (· ≠ []) ∧
      r.stream.result ≠ some ts.flatten := by
  intro ts lines r
  exact ⟨.data _ (.data _ (.data _ (.done []))), by decide +kernel, by decide +kernel,
    by decide +kernel, by decide +kernel, by decide +kernel⟩

end Reading

end Refinery.Inference
