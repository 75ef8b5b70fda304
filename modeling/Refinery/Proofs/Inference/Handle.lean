import Mathlib.Data.List.Induction
import Refinery.Proofs.Inference.Encoding
import Refinery.Proofs.Inference.Line

/-!
The handle of a stream. However its lines arrive, wherever it breaks and whenever it is cancelled,
its result is open until the stream ends, breaks or is first cancelled; from then on it is the
concatenation of what was yielded, and nothing changes it. A stream that comes to its end without a
cancellation has yielded the texts of the lines in front of the mark of the end, in their order.
-/

namespace Refinery.Inference

open Text

namespace Line

/-- The text that a line carries. -/
def text? (l : Text) : Option Text :=
  match read l with
  | .ok (.fragment (.text t)) => some t
  | _ => none

/-- Whether a line carries the mark of the end. -/
def isEnd (l : Text) : Bool :=
  match read l with
  | .ok .endMark => true
  | _ => false

/-- The fragment of a line, if it has one, is a text. -/
def Textual (l : Text) : Prop := ∀ v, read l ≠ .ok (.fragment (.value v))

/-- The texts of lines in front of the first mark of the end. -/
def textsOf (ls : List Text) : List Text := (ls.takeWhile fun l => !isEnd l).filterMap text?

section Reading

variable {l : Text}

theorem textsOf_cons_of_nothing (h : read l = .ok .nothing) (ls : List Text) :
    textsOf (l :: ls) = textsOf ls := by
  have hend : isEnd l = false := by rw [isEnd, h]
  have htext : text? l = none := by rw [text?, h]
  rw [textsOf, List.takeWhile_cons_of_pos (by simp [hend]), List.filterMap_cons_none htext, textsOf]

theorem textsOf_cons_of_text {t : Text} (h : read l = .ok (.fragment (.text t))) (ls : List Text) :
    textsOf (l :: ls) = t :: textsOf ls := by
  have hend : isEnd l = false := by rw [isEnd, h]
  have htext : text? l = some t := by rw [text?, h]
  rw [textsOf, List.takeWhile_cons_of_pos (by simp [hend]), List.filterMap_cons_some htext, textsOf]

theorem textsOf_cons_of_endMark (h : read l = .ok .endMark) (ls : List Text) :
    textsOf (l :: ls) = [] := by
  have hend : isEnd l = true := by rw [isEnd, h]
  rw [textsOf, List.takeWhile_cons_of_neg (by simp [hend]), List.filterMap_nil]

theorem textsOf_append_of_nothing {passed : List Text}
    (h : ∀ l ∈ passed, read l = .ok .nothing) (ls : List Text) :
    textsOf (passed ++ ls) = textsOf ls := by
  induction passed with
  | nil => rfl
  | cons l passed ih =>
      rw [List.cons_append, textsOf_cons_of_nothing (h l List.mem_cons_self),
        ih fun l' hl' => h l' (List.mem_cons_of_mem l hl')]

theorem textual_dataLine (t : Text) : Textual (dataLine t) := by
  intro v
  rw [read_dataLine]
  split
  · nofun
  · split <;> nofun

end Reading

end Line

def Delivery.line? : Delivery → Option Text
  | .line l => some l
  | .broken _ => none

/-- Whether nothing is yielded after an answer. -/
def Pull.isOver : Pull → Bool
  | .ended => true
  | .failed _ => true
  | _ => false

namespace Stream

variable {s : Stream} {complete : Bool} {ds : List Delivery} {ts : List Text}

/-- Why a stream comes to its end, and in what way. -/
inductive Ends (s : Stream) (complete : Bool) (ds : List Delivery) : Pull → Prop
  | complete {passed : List Text} (hds : ds = passed.map .line)
      (hpassed : ∀ l ∈ passed, Line.read l = .ok .nothing) (hcomplete : complete = true) :
      Ends s complete ds .ended
  | marked {passed : List Text} {l : Text} {later : List Delivery}
      (hds : ds = passed.map .line ++ .line l :: later)
      (hpassed : ∀ l ∈ passed, Line.read l = .ok .nothing) (hl : Line.read l = .ok .endMark) :
      Ends s complete ds .ended
  | cancelled (h : s.cancelled = true) : Ends s complete ds .ended
  | broken (why : Failure) : Ends s complete ds (.failed why)

/-- What an open stream makes of deliveries: it passes over lines that carry nothing, and then it
waits, yields a text or comes to its end. -/
inductive Goes (s : Stream) (complete : Bool) (ds : List Delivery) :
    Stream × Pull × List Delivery → Prop
  | waits {passed : List Text} (hds : ds = passed.map .line)
      (hpassed : ∀ l ∈ passed, Line.read l = .ok .nothing) : Goes s complete ds (s, .waiting, [])
  | yields {passed : List Text} {l t : Text} {later : List Delivery}
      (hds : ds = passed.map .line ++ .line l :: later)
      (hpassed : ∀ l ∈ passed, Line.read l = .ok .nothing)
      (hl : Line.read l = .ok (.fragment (.text t))) (hgoing : s.cancelled = false) :
      Goes s complete ds ({ s with yielded := s.yielded ++ [.text t] }, .fragment (.text t), later)
  | closes {how : Pull} {later : List Delivery} (h : s.Ends complete ds how) (hlater : later <:+ ds) :
      Goes s complete ds ((s.close how).1, (s.close how).2, later)

theorem Goes.cons_nothing {l : Text} (hl : Line.read l = .ok .nothing)
    {x : Stream × Pull × List Delivery} (h : s.Goes complete ds x) :
    s.Goes complete (.line l :: ds) x := by
  have hcons : ∀ {passed : List Text}, (∀ l ∈ passed, Line.read l = .ok .nothing) →
      ∀ l' ∈ l :: passed, Line.read l' = .ok .nothing := by
    intro passed hpassed
    exact List.forall_mem_cons.2 ⟨hl, hpassed⟩
  cases h with
  | waits hds hpassed =>
      subst hds
      exact .waits (List.map_cons).symm (hcons hpassed)
  | yields hds hpassed htext hgoing =>
      subst hds
      exact .yields (by rw [List.map_cons, List.cons_append]) (hcons hpassed) htext hgoing
  | closes hends hlater =>
      refine .closes ?_ (hlater.trans (List.suffix_cons _ ds))
      cases hends with
      | complete hds hpassed hcomplete =>
          subst hds
          exact .complete (List.map_cons).symm (hcons hpassed) hcomplete
      | marked hds hpassed hmark =>
          subst hds
          exact .marked (by rw [List.map_cons, List.cons_append]) (hcons hpassed) hmark
      | cancelled hcancelled => exact .cancelled hcancelled
      | broken why => exact .broken why

/-- **What a stream that is asked goes through.** -/
theorem goes_advance (s : Stream) (complete : Bool)
    (htextual : ∀ l, .line l ∈ ds → Line.Textual l) :
    s.Goes complete ds (s.advance complete ds) := by
  have hempty : ([] : List Delivery) = ([] : List Text).map .line := rfl
  have hnone : ∀ l ∈ ([] : List Text), Line.read l = .ok .nothing := fun _ h =>
    absurd h List.not_mem_nil
  induction ds with
  | nil =>
      rw [advance]
      cases complete with
      | true => exact .closes (.complete hempty hnone rfl) List.suffix_rfl
      | false => exact .waits hempty hnone
  | cons d ds ih =>
      have hlater : ds <:+ d :: ds := List.suffix_cons d ds
      have hfirst : d :: ds = ([] : List Text).map .line ++ d :: ds := rfl
      cases d with
      | broken message =>
          rw [advance]
          exact .closes (.broken _) hlater
      | line l =>
          rw [advance]
          split
          · next hcancelled => exact .closes (.cancelled hcancelled) hlater
          · next hgoing =>
            split
            · exact .closes (.broken _) hlater
            · next hl => exact .closes (.marked hfirst hnone hl) hlater
            · next hl => exact (ih fun l' h => htextual l' (List.mem_cons_of_mem _ h)).cons_nothing hl
            · next f hl =>
                cases f with
                | text t => exact .yields hfirst hnone hl (Bool.eq_false_iff.2 hgoing)
                | value v => exact absurd hl (htextual l List.mem_cons_self v)

end Stream

/-! ### A stream that is read -/

namespace Reading

variable {r : Reading} {s : Stream} {m : Move} {ms : List Move} {ts ls : List Text}

def Move.isCancel : Move → Bool
  | cancel => true
  | _ => false

/-- The line that is delivered. -/
def Move.line? : Move → Option Text
  | deliver d => d.line?
  | _ => none

theorem cancel_of_texts (hyielded : s.yielded = ts.map .text)
    (hresult : ∀ t ∈ s.result, t = ts.flatten)
    (hcancelled : s.cancelled = true → s.result = some ts.flatten) :
    s.cancel.1 = { s with cancelled := true, result := some ts.flatten } := by
  unfold Stream.cancel
  cases hc : s.cancelled with
  | true => rw [if_pos rfl, ← hcancelled hc, ← hc]
  | false =>
      rw [if_neg Bool.false_ne_true]
      unfold Stream.resolve
      cases hr : s.result with
      | none =>
          simp only [hyielded, join_map_text]
          rfl
      | some t =>
          obtain rfl := hresult t hr
          simp only

theorem next_pull_of_closed (h : r.stream.closed = true) :
    r.next .pull = { r with answers := r.answers ++ [.ended] } := by
  simp only [next, Stream.pull, h, if_true]

theorem next_pull_of_open (h : r.stream.closed = false) {x : Stream × Pull × List Delivery}
    (hx : r.stream.advance r.complete r.queue = x) :
    r.next .pull =
      { r with stream := x.1, queue := x.2.2, answers := r.answers ++ [x.2.1] } := by
  subst hx
  simp only [next, Stream.pull, h]
  rfl

/-- The result is open until the stream is over or cancelled, and then it is what was yielded. -/
structure Held (r : Reading) : Prop where
  textual : ∀ l, .line l ∈ r.queue → Line.Textual l
  values : ∀ v, .fragment (.value v) ∉ r.answers
  yielded : r.stream.yielded = r.texts.map .text
  closed : r.stream.closed = r.answers.any Pull.isOver
  result : r.stream.result =
    if r.answers.any Pull.isOver || r.stream.cancelled then some r.texts.flatten else none

theorem held_start : Held {} := ⟨fun _ h => absurd h List.not_mem_nil, fun _ => List.not_mem_nil,
  rfl, rfl, rfl⟩

theorem Held.result_eq (h : Held r) : ∀ t ∈ r.stream.result, t = r.texts.flatten := by
  intro t ht
  rw [h.result] at ht
  split at ht
  · exact (Option.some.inj ht).symm
  · cases ht

theorem Held.cancel (h : Held r) : Held (r.next .cancel) := by
  have hcancelled : r.stream.cancelled = true → r.stream.result = some r.texts.flatten := by
    intro hc
    rw [h.result, hc, Bool.or_true, if_pos rfl]
  have hnext : r.next .cancel =
      { r with stream := { r.stream with cancelled := true, result := some r.texts.flatten } } := by
    rw [next, cancel_of_texts h.yielded h.result_eq hcancelled]
  rw [hnext]
  refine ⟨h.textual, h.values, h.yielded, h.closed, ?_⟩
  rw [if_pos (Bool.or_true _)]
  rfl

/-- What asking a stream comes to. -/
inductive Pulled (r : Reading) : Reading → Prop
  | again (hclosed : r.stream.closed = true) :
      Pulled r { r with answers := r.answers ++ [.ended] }
  | waits {passed : List Text} (hopen : r.stream.closed = false)
      (hqueue : r.queue = passed.map .line) (hpassed : ∀ l ∈ passed, Line.read l = .ok .nothing) :
      Pulled r { r with queue := [], answers := r.answers ++ [.waiting] }
  | yields {passed : List Text} {l t : Text} {later : List Delivery}
      (hopen : r.stream.closed = false) (hgoing : r.stream.cancelled = false)
      (hqueue : r.queue = passed.map .line ++ .line l :: later)
      (hpassed : ∀ l ∈ passed, Line.read l = .ok .nothing)
      (hl : Line.read l = .ok (.fragment (.text t))) :
      Pulled r { r with
        stream := { r.stream with yielded := r.stream.yielded ++ [.text t] }
        queue := later
        answers := r.answers ++ [.fragment (.text t)] }
  | closes {how : Pull} {later : List Delivery} (hopen : r.stream.closed = false)
      (hends : r.stream.Ends r.complete r.queue how) (hlater : later <:+ r.queue) :
      Pulled r { r with
        stream := { r.stream with closed := true, result := some r.texts.flatten }
        queue := later
        answers := r.answers ++ [how] }

theorem Held.pulled (h : Held r) : r.Pulled (r.next .pull) := by
  cases hclosed : r.stream.closed with
  | true =>
      rw [next_pull_of_closed hclosed]
      exact .again hclosed
  | false =>
      have hgoes := r.stream.goes_advance r.complete h.textual
      generalize hx : r.stream.advance r.complete r.queue = x at hgoes
      rw [next_pull_of_open hclosed hx]
      cases hgoes with
      | waits hqueue hpassed => exact .waits hclosed hqueue hpassed
      | yields hqueue hpassed hl hgoing => exact .yields hclosed hgoing hqueue hpassed hl
      | closes hends hlater =>
          rw [close_of_texts h.yielded h.result_eq]
          exact .closes hclosed hends hlater

theorem Held.pull (h : Held r) : Held (r.next .pull) := by
  have hpulled := h.pulled
  generalize r.next .pull = r' at hpulled
  cases hpulled with
  | again hclosed =>
      have hover : r.answers.any Pull.isOver = true := h.closed.symm.trans hclosed
      have htexts : texts { r with answers := r.answers ++ [.ended] } = r.texts := by
        simp [texts, Pull.text?]
      refine ⟨h.textual, by simpa using h.values, ?_, ?_, ?_⟩
      · rw [htexts]
        exact h.yielded
      · simpa [hover] using hclosed
      · rw [htexts]
        simpa [hover] using h.result
  | waits _ _ _ =>
      have htexts := texts_append_answer r .waiting r.stream []
      refine ⟨fun _ h => absurd h List.not_mem_nil, by simpa using h.values, ?_, ?_, ?_⟩
      · rw [htexts]
        simpa [Pull.text?] using h.yielded
      · simpa [Pull.isOver] using h.closed
      · rw [htexts]
        simpa [Pull.isOver, Pull.text?] using h.result
  | @yields passed l t later hopen hgoing hqueue _ _ =>
      have htexts := texts_append_answer r (.fragment (.text t))
        { r.stream with yielded := r.stream.yielded ++ [.text t] } later
      have hnot : r.answers.any Pull.isOver = false := h.closed.symm.trans hopen
      have hresult := h.result
      rw [hnot, hgoing, Bool.or_false, if_neg Bool.false_ne_true] at hresult
      refine ⟨fun l' hl' => h.textual l' ?_, by simpa using h.values, ?_, ?_, ?_⟩
      · rw [hqueue]
        exact List.mem_append_right _ (List.mem_cons_of_mem _ hl')
      · rw [htexts]
        simp [Pull.text?, h.yielded]
      · simpa [Pull.isOver] using h.closed
      · rw [htexts]
        simpa [Pull.isOver, hnot, hgoing] using hresult
  | @closes how later _ hends hlater =>
      have hover : how.isOver = true ∧ how.text? = none := by
        cases hends <;> exact ⟨rfl, rfl⟩
      have htexts := texts_append_answer r how
        { r.stream with closed := true, result := some r.texts.flatten } later
      rw [hover.2, Option.toList_none, List.append_nil] at htexts
      refine ⟨fun l' hl' => h.textual l' (hlater.subset hl'), ?_, ?_, ?_, ?_⟩
      · intro v hv
        rcases List.mem_append.1 hv with hv | hv
        · exact h.values v hv
        · have hhow : Pull.fragment (.value v) = how := List.mem_singleton.1 hv
          rw [← hhow] at hover
          cases hover.1
      · rw [htexts]
        exact h.yielded
      · simp [hover.1]
      · rw [htexts]
        simp [hover.1]

theorem Held.next (h : Held r) (hm : ∀ l, m = .deliver (.line l) → Line.Textual l) :
    Held (r.next m) := by
  cases m with
  | deliver d =>
      refine ⟨fun l hl => ?_, h.values, h.yielded, h.closed, h.result⟩
      rcases List.mem_append.1 hl with hl | hl
      · exact h.textual l hl
      · exact hm l (by rw [List.mem_singleton.1 hl])
  | finish => exact ⟨h.textual, h.values, h.yielded, h.closed, h.result⟩
  | pull => exact h.pull
  | cancel => exact h.cancel

theorem after_concat (r : Reading) (ms : List Move) (m : Move) :
    r.after (ms ++ [m]) = (r.after ms).next m := by
  rw [after_append]
  rfl

theorem held_after (h : ∀ l, .deliver (.line l) ∈ ms → Line.Textual l) : Held (after {} ms) := by
  induction ms using List.reverseRecOn with
  | nil => exact held_start
  | append_singleton ms m ih =>
      rw [after_concat]
      refine (ih fun l hl => h l (List.mem_append_left _ hl)).next fun l hl => h l ?_
      exact List.mem_append_right _ (by rw [hl]; exact List.mem_singleton_self _)

theorem resolve_of_result {t : Text} (h : s.result = some t) : s.resolve = .ok s := by
  simp only [Stream.resolve, h]

theorem close_of_result {t : Text} (h : s.result = some t) (how : Pull) :
    s.close how = ({ s with closed := true }, how) := by
  have hresolve := resolve_of_result (s := { s with closed := true }) h
  simp only [Stream.close, hresolve]

theorem result_advance {t : Text} (h : s.result = some t) (complete : Bool) (ds : List Delivery) :
    (s.advance complete ds).1.result = some t := by
  induction ds with
  | nil =>
      cases complete with
      | true =>
          rw [Stream.advance, if_pos rfl, close_of_result h]
          exact h
      | false => exact h
  | cons d ds ih =>
      cases d with
      | broken message =>
          rw [Stream.advance, close_of_result h]
          exact h
      | line l =>
          rw [Stream.advance]
          simp only [close_of_result h]
          split
          · exact h
          · split
            · exact h
            · exact h
            · exact ih
            · exact h

/-- **A result that is settled stays.** -/
theorem result_after {t : Text} (h : r.stream.result = some t) (ms : List Move) :
    (r.after ms).stream.result = some t := by
  induction ms generalizing r with
  | nil => exact h
  | cons m ms ih =>
      refine ih (r := r.next m) ?_
      cases m with
      | pull =>
          cases hclosed : r.stream.closed with
          | true =>
              rw [next_pull_of_closed hclosed]
              exact h
          | false =>
              rw [next_pull_of_open hclosed rfl]
              exact result_advance h _ _
      | cancel =>
          rw [next, Stream.cancel]
          split
          · exact h
          · have hresolve := resolve_of_result (s := { r.stream with cancelled := true }) h
            simp only [hresolve]
            exact h
      | _ => exact h

theorem close_cases (s : Stream) (how : Pull) : (s.close how).1.cancelled = s.cancelled ∧
    ((s.close how).2 = how ∨ ∃ why, (s.close how).2 = .failed why) := by
  unfold Stream.close Stream.resolve
  cases hr : s.result with
  | some t =>
      simp only [true_or, and_true]
  | none =>
      simp only
      cases Fragment.join 0 s.yielded with
      | ok t => exact ⟨rfl, Or.inl rfl⟩
      | error why => exact ⟨rfl, Or.inr ⟨why, rfl⟩⟩

theorem cancelled_advance (s : Stream) (complete : Bool) (ds : List Delivery) :
    (s.advance complete ds).1.cancelled = s.cancelled := by
  have hclose : ∀ how : Pull, (s.close how).1.cancelled = s.cancelled := fun how =>
    (close_cases s how).1
  induction ds with
  | nil =>
      rw [Stream.advance]
      cases complete with
      | true => exact hclose .ended
      | false => rfl
  | cons d ds ih =>
      cases d with
      | broken message => exact hclose _
      | line l =>
          rw [Stream.advance]
          split
          · exact hclose .ended
          · split
            · exact hclose _
            · exact hclose .ended
            · exact ih
            · rfl

/-- A stream that was cancelled does not answer with a fragment. -/
theorem advance_ne_fragment (h : s.cancelled = true) (complete : Bool) (ds : List Delivery) :
    ∀ f, (s.advance complete ds).2.1 ≠ .fragment f := by
  have hclose : ∀ how : Pull, (∀ f, how ≠ .fragment f) → ∀ f, (s.close how).2 ≠ .fragment f := by
    intro how hhow f hf
    rcases (close_cases s how).2 with hanswer | ⟨why, hanswer⟩
    · exact hhow f (hanswer.symm.trans hf)
    · cases hanswer.symm.trans hf
  cases ds with
  | nil =>
      rw [Stream.advance]
      cases complete with
      | true => exact hclose .ended fun f hf => by cases hf
      | false => exact fun f hf => by cases hf
  | cons d ds =>
      cases d with
      | broken message =>
          rw [Stream.advance]
          exact hclose _ fun f hf => by cases hf
      | line l =>
          rw [Stream.advance, if_pos h]
          exact hclose .ended fun f hf => by cases hf

theorem next_cancel_of_cancelled (h : r.stream.cancelled = true) : r.next .cancel = r := by
  rw [next, Stream.cancel, if_pos h]

theorem cancelled_next (r : Reading) (m : Move) :
    (r.next m).stream.cancelled = (r.stream.cancelled || m.isCancel) := by
  cases m with
  | pull =>
      refine Eq.trans ?_ (Bool.or_false _).symm
      cases hclosed : r.stream.closed with
      | true => rw [next_pull_of_closed hclosed]
      | false =>
          rw [next_pull_of_open hclosed rfl]
          exact cancelled_advance _ _ _
  | cancel =>
      rw [Move.isCancel, Bool.or_true]
      cases hc : r.stream.cancelled with
      | true => rw [next_cancel_of_cancelled hc, hc]
      | false =>
          simp only [next, Stream.cancel, hc, Bool.false_eq_true, if_false, Stream.resolve]
          cases r.stream.result with
          | some t => rfl
          | none => cases Fragment.join 0 r.stream.yielded <;> rfl
  | _ => exact (Bool.or_false _).symm

theorem cancelled_after (r : Reading) (ms : List Move) :
    (r.after ms).stream.cancelled = (r.stream.cancelled || ms.any Move.isCancel) := by
  induction ms generalizing r with
  | nil => exact (Bool.or_false _).symm
  | cons m ms ih =>
      have hfirst : (r.after (m :: ms)).stream.cancelled = _ := ih (r.next m)
      rw [hfirst, cancelled_next, List.any_cons, Bool.or_assoc]

/-- **After a cancellation nothing is yielded.** -/
theorem exists_answers_after (h : r.stream.cancelled = true) (ms : List Move) :
    ∃ later, (r.after ms).answers = r.answers ++ later ∧ ∀ f, .fragment f ∉ later := by
  induction ms generalizing r with
  | nil => exact ⟨[], (List.append_nil _).symm, fun _ => List.not_mem_nil⟩
  | cons m ms ih =>
      have hcancelled : (r.next m).stream.cancelled = true := by
        rw [cancelled_next, h, Bool.true_or]
      have hnext : ∃ new, (r.next m).answers = r.answers ++ new ∧ ∀ f, .fragment f ∉ new := by
        have hsame : ∃ new, r.answers = r.answers ++ new ∧ ∀ f, .fragment f ∉ new :=
          ⟨[], (List.append_nil _).symm, fun _ => List.not_mem_nil⟩
        cases m with
        | pull =>
            cases hclosed : r.stream.closed with
            | true =>
                rw [next_pull_of_closed hclosed]
                exact ⟨[.ended], rfl, fun f hf => by cases List.mem_singleton.1 hf⟩
            | false =>
                have hnone := advance_ne_fragment h r.complete r.queue
                rw [next_pull_of_open hclosed rfl]
                exact ⟨[_], rfl, fun f hf => hnone f (List.mem_singleton.1 hf).symm⟩
        | cancel =>
            rw [next_cancel_of_cancelled h]
            exact hsame
        | _ => exact hsame
      obtain ⟨new, hnew, hnone⟩ := hnext
      obtain ⟨later, hlater, hnone'⟩ := ih hcancelled
      refine ⟨new ++ later, ?_, fun f hf => ?_⟩
      · show ((r.next m).after ms).answers = _
        rw [hlater, hnew, List.append_assoc]
      · exact (List.mem_append.1 hf).elim (hnone f) (hnone' f)

/-! ### The texts that are yielded -/

/-- The lines that were delivered and not looked at yet. -/
def waiting (r : Reading) : List Text := r.queue.filterMap Delivery.line?

/-- While nobody cancels, the texts of the lines are those that were yielded and those of the lines
that wait; at an end without a failure they are those that were yielded. -/
structure InOrder (ls : List Text) (r : Reading) : Prop where
  going : r.stream.closed = false → r.stream.cancelled = false → ∀ later,
    Line.textsOf (ls ++ later) = r.texts ++ Line.textsOf (r.waiting ++ later)
  ended : r.stream.closed = true → r.stream.cancelled = false →
    (∀ why, .failed why ∉ r.answers) → ∀ later, (r.complete = true → later = []) →
      Line.textsOf (ls ++ later) = r.texts

theorem inOrder_start : InOrder [] {} :=
  ⟨fun _ _ _ => rfl, fun hover => absurd hover Bool.false_ne_true⟩

theorem filterMap_line (ls : List Text) :
    (ls.map Delivery.line).filterMap Delivery.line? = ls := by
  induction ls with
  | nil => rfl
  | cons l ls ih => simp only [List.map_cons, List.filterMap_cons, Delivery.line?, ih]

theorem waiting_of_queue {passed : List Text} {l : Text} {later : List Delivery}
    (h : r.queue = passed.map .line ++ .line l :: later) :
    r.waiting = passed ++ l :: later.filterMap Delivery.line? := by
  rw [waiting, h, List.filterMap_append, filterMap_line]
  simp only [List.filterMap_cons, Delivery.line?]

theorem InOrder.pull (h : InOrder ls r) (hheld : Held r) : InOrder ls (r.next .pull) := by
  have hpulled := hheld.pulled
  generalize r.next .pull = r' at hpulled
  cases hpulled with
  | again hclosed =>
      have htexts : texts { r with answers := r.answers ++ [.ended] } = r.texts := by
        simp [texts, Pull.text?]
      refine ⟨fun hopen => absurd (hopen.symm.trans hclosed) Bool.false_ne_true, ?_⟩
      intro _ hlive hnone later hlater
      rw [htexts]
      exact h.ended hclosed hlive (fun why hw => hnone why (List.mem_append_left _ hw)) later hlater
  | waits hopen hqueue hpassed =>
      have htexts := texts_append_answer r .waiting r.stream []
      refine ⟨fun _ hlive later => ?_,
        fun hover => absurd (hopen.symm.trans hover) Bool.false_ne_true⟩
      rw [htexts, h.going hopen hlive later, waiting, hqueue, filterMap_line,
        Line.textsOf_append_of_nothing hpassed]
      simp [Pull.text?, waiting]
  | @yields passed l t later hopen _ hqueue hpassed hl =>
      have htexts := texts_append_answer r (.fragment (.text t))
        { r.stream with yielded := r.stream.yielded ++ [.text t] } later
      refine ⟨fun _ hlive more => ?_,
        fun hover => absurd (hopen.symm.trans hover) Bool.false_ne_true⟩
      rw [htexts, h.going hopen hlive more, waiting_of_queue hqueue, List.append_assoc passed,
        Line.textsOf_append_of_nothing hpassed, List.cons_append, Line.textsOf_cons_of_text hl]
      simp [Pull.text?, waiting]
  | @closes how later hopen hends _ =>
      have htexts := texts_append_answer r how
        { r.stream with closed := true, result := some r.texts.flatten } later
      refine ⟨fun hopen' => absurd hopen'.symm Bool.false_ne_true,
        fun _ hlive hnone more hmore => ?_⟩
      rw [htexts, h.going hopen hlive more]
      cases hends with
      | complete hds hpassed hcomplete =>
          rw [hmore hcomplete, waiting, hds, filterMap_line,
            Line.textsOf_append_of_nothing hpassed]
          rfl
      | marked hds hpassed hmark =>
          rw [waiting_of_queue hds, List.append_assoc, Line.textsOf_append_of_nothing hpassed,
            List.cons_append, Line.textsOf_cons_of_endMark hmark]
          rfl
      | cancelled hcancelled =>
          exact absurd (hlive.symm.trans hcancelled) Bool.false_ne_true
      | broken why =>
          exact absurd (List.mem_append_right _ (List.mem_singleton_self _)) (hnone why)

/-- One move, when nothing is delivered after the last delivery. -/
theorem InOrder.next (h : InOrder ls r) (hheld : Held r)
    (hm : r.complete = true → ∀ d, m ≠ .deliver d) :
    InOrder (ls ++ m.line?.toList) (r.next m) := by
  cases m with
  | deliver d =>
      have hwaiting : (r.next (.deliver d)).waiting = r.waiting ++ d.line?.toList := by
        rw [waiting, waiting, Reading.next, List.filterMap_append]
        cases d <;> rfl
      refine ⟨fun hopen hlive later => ?_, fun hover hlive hnone later _ => ?_⟩
      · rw [hwaiting, List.append_assoc, List.append_assoc]
        exact h.going hopen hlive (d.line?.toList ++ later)
      · rw [List.append_assoc]
        exact h.ended hover hlive hnone _ fun hcomplete => absurd rfl (hm hcomplete d)
  | finish =>
      rw [show Move.finish.line?.toList = [] from rfl, List.append_nil]
      refine ⟨h.going, fun hover hlive hnone later hlater => ?_⟩
      exact h.ended hover hlive hnone later fun _ => hlater rfl
  | pull =>
      rw [show Move.pull.line?.toList = [] from rfl, List.append_nil]
      exact h.pull hheld
  | cancel =>
      have hcancelled : (r.next .cancel).stream.cancelled = true := by
        rw [cancelled_next, Move.isCancel, Bool.or_true]
      exact ⟨fun _ hlive => absurd (hlive.symm.trans hcancelled) Bool.false_ne_true,
        fun _ hlive => absurd (hlive.symm.trans hcancelled) Bool.false_ne_true⟩

theorem complete_next (r : Reading) (m : Move) :
    (r.next m).complete = true ↔ r.complete = true ∨ m = .finish := by
  cases m <;> simp [next]

theorem complete_after (r : Reading) (ms : List Move) :
    (r.after ms).complete = true ↔ r.complete = true ∨ .finish ∈ ms := by
  induction ms generalizing r with
  | nil => simp [after]
  | cons m ms ih =>
      have hfirst : (r.after (m :: ms)).complete = true ↔ _ := ih (r.next m)
      rw [hfirst, complete_next, List.mem_cons, or_assoc, eq_comm (a := m)]

/-- The last delivery of a body is before its end. -/
def WellSent (ms : List Move) : Prop :=
  ms.Pairwise fun m n => m = .finish → ∀ d, n ≠ .deliver d

theorem inOrder_after (htextual : ∀ l, .deliver (.line l) ∈ ms → Line.Textual l)
    (hsent : WellSent ms) : InOrder (ms.filterMap Move.line?) (after {} ms) := by
  induction ms using List.reverseRecOn with
  | nil => exact inOrder_start
  | append_singleton ms m ih =>
      have hbefore : ∀ l, .deliver (.line l) ∈ ms → Line.Textual l := fun l hl =>
        htextual l (List.mem_append_left _ hl)
      obtain ⟨hfirst, -, hlast⟩ := List.pairwise_append.1 hsent
      rw [after_concat, List.filterMap_append, List.filterMap_cons]
      have hstep := (ih hbefore hfirst).next (m := m) (held_after hbefore) fun hcomplete => by
        rcases (complete_after {} ms).1 hcomplete with hnone | hfinish
        · cases hnone
        · exact hlast _ hfinish _ (List.mem_singleton_self m) rfl
      cases hm : m.line? <;> rw [hm] at hstep <;> exact hstep

theorem ne_nil_of_mem_textsOf {t : Text} (h : t ∈ Line.textsOf ls) : t ≠ [] := by
  obtain ⟨l, -, hl⟩ := List.mem_filterMap.1 h
  unfold Line.text? at hl
  split at hl
  · next hread =>
    cases hl
    exact Line.ne_nil_of_read hread
  · cases hl

/-- **How a stream is settled.** Lines whose fragments are texts are delivered, the body ends or the
transport breaks, and the stream is asked and cancelled in any order. All that is yielded are texts.
The result is open until an answer says that the stream is over or it is cancelled; then it is what
was yielded by then, joined, and no later move changes it. Once the stream is cancelled, a further
cancellation changes nothing, and no later answer is a fragment. If the stream ends without a failure
and nobody cancels it, it has yielded the texts of the lines in front of the mark of the end, or in
front of the end of the body, and they are not empty. -/
theorem result_settled_once (htextual : ∀ l, .deliver (.line l) ∈ ms → Line.Textual l)
    (hsent : WellSent ms) :
    let r := after {} ms
    (∀ v, .fragment (.value v) ∉ r.answers) ∧
      r.stream.result = (if r.answers.any Pull.isOver || ms.any Move.isCancel then
        some r.texts.flatten else none) ∧
      (∀ t more, r.stream.result = some t → (r.after more).stream.result = some t) ∧
      (.cancel ∈ ms → r.next .cancel = r ∧ ∀ more, ∃ later,
        (r.after more).answers = r.answers ++ later ∧ ∀ f, .fragment f ∉ later) ∧
      (.cancel ∉ ms → .ended ∈ r.answers → (∀ why, .failed why ∉ r.answers) →
        r.texts = Line.textsOf (ms.filterMap Move.line?) ∧ [] ∉ r.texts) := by
  intro r
  have hheld : Held r := held_after htextual
  have hcancelled : r.stream.cancelled = ms.any Move.isCancel := cancelled_after {} ms
  have hmem : ms.any Move.isCancel = true ↔ .cancel ∈ ms := by
    rw [List.any_eq_true]
    constructor
    · rintro ⟨m, hm, hcancel⟩
      cases m <;> first | exact hm | cases hcancel
    · exact fun h => ⟨.cancel, h, rfl⟩
  refine ⟨hheld.values, hcancelled ▸ hheld.result, fun t more ht => result_after ht more, ?_, ?_⟩
  · intro hcancel
    have hnow : r.stream.cancelled = true := hcancelled.trans (hmem.2 hcancel)
    exact ⟨next_cancel_of_cancelled hnow, exists_answers_after hnow⟩
  · intro hnone hended hunfailing
    have hlive : r.stream.cancelled = false := by
      rw [hcancelled, Bool.eq_false_iff, Ne, hmem]
      exact hnone
    have hclosed : r.stream.closed = true := by
      rw [hheld.closed, List.any_eq_true]
      exact ⟨.ended, hended, rfl⟩
    have htexts := (inOrder_after htextual hsent).ended hclosed hlive hunfailing [] fun _ => rfl
    rw [List.append_nil] at htexts
    refine ⟨htexts.symm, fun hnil => ?_⟩
    rw [← htexts] at hnil
    exact ne_nil_of_mem_textsOf hnil rfl

/-- A stream that is cancelled between two fragments, before its transport breaks, and one whose body
ends. -/
theorem cancelled_stream_and_whole_stream :
    let cut : List Move := [.deliver (.line (dataLine ['a'])), .pull,
      .deliver (.line (dataLine ['b'])), .cancel, .deliver (.broken "reset".toList), .pull, .cancel]
    let whole : List Move := [.deliver (.line (dataLine ['a'])), .pull,
      .deliver (.line (dataLine ['b'])), .finish, .pull, .pull]
    (after {} cut).stream.result = some ['a'] ∧
      (∀ more, ((after {} cut).after more).stream.result = some ['a']) ∧
      (after {} whole).stream.result = some ['a', 'b'] ∧
      (after {} whole).texts = Line.textsOf [dataLine ['a'], dataLine ['b']] := by
  intro cut whole
  have hcut : ∀ l, .deliver (.line l) ∈ cut → Line.Textual l := by
    intro l hl
    simp only [cut, List.mem_cons, Move.deliver.injEq, Delivery.line.injEq, reduceCtorEq, false_or,
      or_false, List.not_mem_nil] at hl
    rcases hl with rfl | rfl <;> exact Line.textual_dataLine _
  have hwhole : ∀ l, .deliver (.line l) ∈ whole → Line.Textual l := by
    intro l hl
    simp only [whole, List.mem_cons, Move.deliver.injEq, Delivery.line.injEq, reduceCtorEq, false_or,
      or_false, List.not_mem_nil] at hl
    rcases hl with rfl | rfl <;> exact Line.textual_dataLine _
  obtain ⟨-, hcutResult, hstays, -, -⟩ := result_settled_once hcut (by simp [cut, WellSent])
  obtain ⟨-, hwholeResult, -, -, hend⟩ := result_settled_once hwhole (by simp [whole, WellSent])
  have hsettled : (after {} cut).stream.result = some ['a'] :=
    hcutResult.trans (by decide +kernel)
  refine ⟨hsettled, fun more => hstays _ more hsettled, hwholeResult.trans (by decide +kernel), ?_⟩
  have hanswers : (after {} whole).answers =
      [.fragment (.text ['a']), .fragment (.text ['b']), .ended] := by
    rfl
  refine (hend (by simp [whole]) ?_ ?_).1
  · rw [hanswers]
    simp
  · rw [hanswers]
    simp

end Reading
end Refinery.Inference
