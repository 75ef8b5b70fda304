import Refinery.Proofs.Session.Transcript

/-!
The streamed preview. Each attempt of a ladder announces its first token and then shows its tokens in
pieces, all but the last of which are long enough; where the ladder ends with an output, the pieces of
its last attempt are that output.
-/

namespace Refinery

open Inference

/-- Fragments can be joined exactly where all of them are texts. -/
theorem Inference.Fragment.join_eq_ok_iff {index : Nat} {fs : List Fragment} {t : Text} :
    Fragment.join index fs = .ok t ↔
      (∀ f ∈ fs, f = .text f.asText) ∧ t = fs.flatMap Fragment.asText := by
  induction fs generalizing index t with
  | nil => simp [join, eq_comm]
  | cons f fs ih =>
      cases f with
      | value v => simp [join, asText]
      | text u =>
          have htext : text u = text (text u).asText := rfl
          rw [join, List.forall_mem_cons, and_iff_right htext, List.flatMap_cons]
          cases hjoin : join (index + 1) fs with
          | error why =>
              refine iff_of_false nofun fun h => ?_
              have hok : join (index + 1) fs = .ok (fs.flatMap asText) := ih.2 ⟨h.1, rfl⟩
              rw [hjoin] at hok
              cases hok
          | ok v =>
              obtain ⟨htexts, rfl⟩ := ih.1 hjoin
              rw [and_iff_right htexts, Except.map, Except.ok.injEq]
              exact eq_comm

/-- The events of an attempt that took these tokens and showed these pieces. -/
inductive Relayed (flushChars : Int) : List Fragment → List Event → List Text → Prop
  | silent : Relayed flushChars [] [] []
  | active {tokens : List Fragment} {pieces : List Text} (htokens : tokens ≠ [])
      (hlong : ∀ t ∈ pieces.dropLast, flushChars ≤ t.length) :
      Relayed flushChars tokens (.streamActive :: pieces.map .chunk) pieces

variable {flushChars : Int} {tokens : List Fragment} {events : List Event} {pieces : List Text}

theorem Relayed.token (h : Relayed flushChars tokens events pieces) (f : Fragment) :
    Relayed flushChars (tokens ++ [f])
      (events ++ if tokens.isEmpty then [.streamActive] else []) pieces := by
  cases h with
  | silent =>
      have hfirst : Relayed flushChars [f] (.streamActive :: [].map .chunk) [] :=
        .active (List.cons_ne_nil f []) (by simp)
      exact hfirst
  | active htokens hlong =>
      rw [if_neg (by simpa using htokens), List.append_nil]
      exact .active (List.concat_ne_nil f tokens) hlong

theorem Relayed.piece (h : Relayed flushChars tokens events pieces) (htokens : tokens ≠ [])
    (hlong : ∀ t ∈ pieces, flushChars ≤ t.length) (t : Text) :
    Relayed flushChars tokens (events ++ [.chunk t]) (pieces ++ [t]) := by
  cases h with
  | silent => exact absurd rfl htokens
  | active _ _ =>
      have hpieces : Relayed flushChars tokens (.streamActive :: (pieces ++ [t]).map .chunk)
          (pieces ++ [t]) := .active htokens (by rwa [List.dropLast_concat])
      simpa using hpieces

theorem Relayed.not_mem_retryClear (h : Relayed flushChars tokens events pieces) :
    .retryClear ∉ events := by
  cases h <;> simp

/-- The text of an attempt is shown, and it is that of its tokens. -/
structure Conveyed (flushChars : Int) (output : Text) (tokens : List Fragment)
    (events : List Event) (pieces : List Text) : Prop where
  relayed : Relayed flushChars tokens events pieces
  shown : pieces.flatten = output
  joined : Fragment.join 0 tokens = .ok output

namespace Generation

variable {settings : Settings} {g g' : Generation} {s : Scene}

/-- A reader has put these tokens into pieces, but for those that are on its preview. -/
structure Relaying (flushChars : Int) (g : Generation) (tokens : List Fragment)
    (events : List Event) (pieces : List Text) : Prop where
  relayed : Relayed flushChars tokens events pieces
  long : ∀ t ∈ pieces, flushChars ≤ t.length
  sent : ∃ sent, tokens = sent ++ g.preview ∧ Fragment.join 0 sent = .ok pieces.flatten
  output : g.output = tokens.flatMap Fragment.asText
  count : g.count = tokens.length
  size : ∀ t, Fragment.join 0 g.preview = .ok t → g.previewSize = t.length

theorem Relaying.congr (h : g.Relaying flushChars tokens events pieces)
    (hpreview : g'.preview = g.preview) (hsize : g'.previewSize = g.previewSize)
    (houtput : g'.output = g.output) (hcount : g'.count = g.count) :
    g'.Relaying flushChars tokens events pieces where
  relayed := h.relayed
  long := h.long
  sent := hpreview ▸ h.sent
  output := houtput.trans h.output
  count := hcount.trans h.count
  size := by
    rw [hpreview, hsize]
    exact h.size

/-- What is on the preview goes with the pieces. -/
theorem Relaying.conveyed (h : g.Relaying flushChars tokens events pieces) {t : Text}
    (ht : Fragment.join 0 g.preview = .ok t) :
    (pieces ++ [t]).flatten = g.output ∧ Fragment.join 0 tokens = .ok g.output := by
  obtain ⟨sent, rfl, hsent⟩ := h.sent
  obtain ⟨hsent, hpieces⟩ := Fragment.join_eq_ok_iff.1 hsent
  obtain ⟨hpreview, rfl⟩ := Fragment.join_eq_ok_iff.1 ht
  constructor
  · simp [h.output, hpieces]
  · exact Fragment.join_eq_ok_iff.2 ⟨List.forall_mem_append.2 ⟨hsent, hpreview⟩, h.output⟩

/-- A token is put on the preview. -/
theorem Relaying.put (h : g.Relaying flushChars tokens events pieces) {f : Fragment} {n : Nat}
    (hsize : f.size = .ok n) :
    Relaying flushChars { g with
        output := g.output ++ f.asText, count := g.count + 1, preview := g.preview ++ [f],
        previewSize := g.previewSize + n }
      (tokens ++ [f]) (events ++ if tokens.isEmpty then [.streamActive] else []) pieces where
  relayed := h.relayed.token f
  long := h.long
  sent := by
    obtain ⟨sent, rfl, hsent⟩ := h.sent
    exact ⟨sent, List.append_assoc _ _ _, hsent⟩
  output := by simp [h.output]
  count := by simp [h.count]
  size t ht := by
    obtain ⟨htexts, rfl⟩ := Fragment.join_eq_ok_iff.1 ht
    obtain ⟨hpreview, hf⟩ := List.forall_mem_append.1 htexts
    have hlength := h.size _ (Fragment.join_eq_ok_iff.2 ⟨hpreview, rfl⟩)
    rw [hf f (List.mem_singleton_self f), Fragment.size, Except.ok.injEq] at hsize
    simp [hlength, ← hsize]

/-- What an attempt has shown by the time that its reader is so far. -/
def Tracks (flushChars : Int) (g : Generation) (tokens : List Fragment) (events : List Event) :
    Prop :=
  match g.reader with
  | .settling => ∃ pieces, Conveyed flushChars g.output tokens events pieces
  | .stopped none => ∃ pieces, Conveyed flushChars g.output tokens events pieces
  | .stopped (some _) => ∃ pieces, Relayed flushChars tokens events pieces
  | _ => ∃ pieces, g.Relaying flushChars tokens events pieces

theorem Tracks.exists_relayed (h : g.Tracks flushChars tokens events) :
    ∃ pieces, Relayed flushChars tokens events pieces := by
  unfold Tracks at h
  split at h
  · exact h.imp fun _ h => h.relayed
  · exact h.imp fun _ h => h.relayed
  · exact h
  · exact h.imp fun _ h => h.relayed

theorem tracks_finish (h : Relayed flushChars tokens events pieces) (why : Failure) :
    (g.finish (some why)).Tracks flushChars tokens events := ⟨pieces, h⟩

theorem Relaying.tracks (h : g.Relaying flushChars tokens events pieces)
    (hreader : g.reader = .streaming) : g.Tracks flushChars tokens events := by
  unfold Tracks
  rw [hreader]
  exact ⟨pieces, h⟩

theorem Tracks.relaying (h : g.Tracks flushChars tokens events) (hreader : g.reader = .streaming) :
    ∃ pieces, g.Relaying flushChars tokens events pieces := by
  unfold Tracks at h
  rwa [hreader] at h

theorem Tracks.congr (h : g.Tracks flushChars tokens events) (hreader : g'.reader = g.reader)
    (hpreview : g'.preview = g.preview) (hsize : g'.previewSize = g.previewSize)
    (houtput : g'.output = g.output) (hcount : g'.count = g.count) :
    g'.Tracks flushChars tokens events := by
  unfold Tracks at h ⊢
  rw [hreader, houtput]
  split
  · next heq => rwa [heq] at h
  · next heq => rwa [heq] at h
  · next heq => rwa [heq] at h
  · next hsettling hnone hsome =>
      split at h
      · next heq => exact absurd heq hsettling
      · next heq => exact absurd heq hnone
      · next heq => exact absurd heq (hsome _)
      · exact h.imp fun _ h => h.congr hpreview hsize houtput hcount

theorem Tracks.rest (h : g.Tracks flushChars tokens events) :
    (g.rest settings).Tracks flushChars tokens events := by
  obtain ⟨pieces, hrelayed⟩ := h.exists_relayed
  unfold Generation.rest
  split
  · exact h
  · split
    · exact tracks_finish hrelayed _
    · split
      · exact h.congr rfl rfl rfl rfl rfl
      · exact h

theorem flush_cases (g : Generation) (s : Scene) :
    (∃ why, g.flush s = (g.finish (some why), s)) ∨
    ∃ t s', Fragment.join 0 g.preview = .ok t ∧ s'.told = .chunk t :: s.told ∧
      ((∃ why, g.flush s = (g.finish (some why), s')) ∨
        g.flush s = ({ g with preview := [], previewSize := 0 }, s')) := by
  unfold flush
  cases hjoin : Fragment.join 0 g.preview with
  | error why => exact .inl ⟨why, rfl⟩
  | ok t =>
      have htold : (s.emit (.chunk t)).1.told = .chunk t :: s.told := Scene.told_emit _ _
      refine .inr ⟨t, (s.emit (.chunk t)).1, rfl, htold, ?_⟩
      cases hemit : s.emit (.chunk t) with
      | mk s' failure =>
          cases failure with
          | some why => exact .inl ⟨why, by simp only [hemit]⟩
          | none => exact .inr (by simp only [hemit])

/-- The preview is sent: the attempt fails, or all of its tokens are shown. -/
theorem Relaying.flush (h : g.Relaying flushChars tokens events pieces) (htokens : tokens ≠ [])
    (s : Scene) : ∃ new, (g.flush s).2.told = new.reverse ++ s.told ∧
      ((∃ why pieces', (g.flush s).1 = g.finish (some why) ∧
          Relayed flushChars tokens (events ++ new) pieces') ∨
        ∃ t, (g.flush s).1 = { g with preview := [], previewSize := 0 } ∧
          Fragment.join 0 g.preview = .ok t ∧
          Conveyed flushChars g.output tokens (events ++ new) (pieces ++ [t])) := by
  rcases flush_cases g s with ⟨why, hflush⟩ | ⟨t, s', hjoin, htold, hcases⟩
  · rw [hflush]
    exact ⟨[], rfl, .inl ⟨why, pieces, rfl, by simpa using h.relayed⟩⟩
  · have hrelayed := h.relayed.piece htokens h.long t
    rcases hcases with ⟨why, hflush⟩ | hflush
    · rw [hflush]
      exact ⟨[.chunk t], htold, .inl ⟨why, _, rfl, hrelayed⟩⟩
    · obtain ⟨hshown, hjoined⟩ := h.conveyed hjoin
      rw [hflush]
      exact ⟨[.chunk t], htold, .inr ⟨t, rfl, hjoin, hrelayed, hshown, hjoined⟩⟩

/-- A preview that is long enough is sent. -/
theorem Relaying.flush_tracks (h : g.Relaying flushChars tokens events pieces)
    (htokens : tokens ≠ []) (hreader : g.reader = .streaming)
    (hlong : flushChars ≤ g.previewSize) (s : Scene) :
    ∃ new, (g.flush s).2.told = new.reverse ++ s.told ∧
      (g.flush s).1.Tracks flushChars tokens (events ++ new) := by
  obtain ⟨new, htold, ⟨why, pieces', hflush, hrelayed⟩ | ⟨t, hflush, hjoin, hconveyed⟩⟩ :=
    h.flush htokens s
  · exact ⟨new, htold, hflush ▸ tracks_finish hrelayed why⟩
  · refine ⟨new, htold, ?_⟩
    have hempty : Relaying flushChars { g with preview := [], previewSize := 0 } tokens
        (events ++ new) (pieces ++ [t]) := by
      refine ⟨hconveyed.relayed, ?_, ⟨tokens, (List.append_nil _).symm, ?_⟩, h.output, h.count, ?_⟩
      · refine List.forall_mem_append.2 ⟨h.long, fun u hu => ?_⟩
        rw [List.mem_singleton.1 hu, ← h.size t hjoin]
        exact hlong
      · rw [hconveyed.shown]
        exact hconveyed.joined
      · rintro _ ⟨⟩
        rfl
    exact hflush ▸ hempty.tracks hreader

theorem Relaying.extend (h : g.Relaying flushChars tokens events pieces)
    (hreader : g.reader = .streaming) (f : Fragment) (s : Scene) :
    let said := { g with output := g.output ++ f.asText, count := g.count + 1 }
    ∃ new, (said.extend flushChars s f).2.told = new.reverse ++ s.told ∧
      (said.extend flushChars s f).1.Tracks flushChars (tokens ++ [f])
        ((events ++ if tokens.isEmpty then [.streamActive] else []) ++ new) := by
  intro said
  unfold Generation.extend
  cases hsize : f.size with
  | error why =>
      refine ⟨[], rfl, ?_⟩
      rw [List.append_nil]
      exact tracks_finish (h.relayed.token f) why
  | ok n =>
      have hput := h.put hsize
      simp only
      split
      · next hlong => exact hput.flush_tracks (List.concat_ne_nil f tokens) hreader hlong s
      · refine ⟨[], rfl, ?_⟩
        rw [List.append_nil]
        exact hput.tracks hreader

/-- **A token is announced if it is the first, and goes to the preview.** -/
theorem Relaying.token (h : g.Relaying settings.flushChars tokens events pieces)
    (hreader : g.reader = .streaming) (hgoing : s.cancelled = false) (f : Fragment) :
    ∃ new, (g.token settings s f).2.told = new.reverse ++ s.told ∧
      (g.token settings s f).1.Tracks settings.flushChars (tokens ++ [f]) (events ++ new) := by
  let begun : List Event := if tokens.isEmpty then [.streamActive] else []
  have hbegun : ∃ s' failure, (if g.count = 0 then s.emit .streamActive else (s, none)) =
      (s', failure) ∧ s'.told = begun.reverse ++ s.told := by
    cases htokens : tokens with
    | nil =>
        rw [if_pos (by rw [h.count, htokens]; rfl)]
        exact ⟨(s.emit .streamActive).1, (s.emit .streamActive).2, rfl, by simp [begun, htokens]⟩
    | cons first later =>
        rw [if_neg (by simp [h.count, htokens])]
        exact ⟨s, none, rfl, by simp [begun, htokens]⟩
  obtain ⟨s', failure, hemit, htold⟩ := hbegun
  have hgo : ¬ s.cancelled = true := by simp [hgoing]
  unfold Generation.token
  rw [if_neg hgo]
  simp only [hemit]
  cases failure with
  | some why => exact ⟨begun, htold, tracks_finish (h.relayed.token f) why⟩
  | none =>
      obtain ⟨new, htold', htracks⟩ := h.extend hreader f s'
      refine ⟨begun ++ new, ?_, ?_⟩
      · rw [List.reverse_append, List.append_assoc, ← htold]
        exact htold'
      · rw [← List.append_assoc]
        exact htracks.rest

/-- **At the end of the stream the rest of the preview is sent.** -/
theorem Relaying.ended (h : g.Relaying flushChars tokens events pieces)
    (hreader : g.reader = .streaming) (s : Scene) :
    ∃ new, (g.ended s).2.told = new.reverse ++ s.told ∧
      (g.ended s).1.Tracks flushChars tokens (events ++ new) := by
  have hopen : g.isOver = false := by rw [isOver, hreader]
  unfold Generation.ended
  by_cases hpreview : g.preview = []
  · have hconveyed : Conveyed flushChars g.output tokens events pieces := by
      obtain ⟨hshown, hjoined⟩ := h.conveyed (t := []) (by rw [hpreview]; rfl)
      exact ⟨h.relayed, by simpa using hshown, hjoined⟩
    simp only [hpreview, List.isEmpty_nil, if_true, hopen, Bool.false_eq_true, if_false]
    exact ⟨[], rfl, pieces, by simpa using hconveyed⟩
  · have htokens : tokens ≠ [] := by
      obtain ⟨sent, rfl, -⟩ := h.sent
      exact List.append_ne_nil_of_right_ne_nil sent hpreview
    have hfilled : g.preview.isEmpty = false := by simpa using hpreview
    obtain ⟨new, htold, ⟨why, pieces', hflush, hrelayed⟩ | ⟨t, hflush, -, hconveyed⟩⟩ :=
      h.flush htokens s
    · have hover : (g.finish (some why)).isOver = true := rfl
      simp only [hfilled, Bool.false_eq_true, if_false, hflush, hover, if_true]
      exact ⟨new, htold, tracks_finish hrelayed why⟩
    · have hopen' : isOver { g with preview := [], previewSize := 0 } = false := hopen
      simp only [hfilled, Bool.false_eq_true, if_false, hflush, hopen']
      exact ⟨new, htold, _, hconveyed⟩

/-- **What an attempt has shown after a signal**, unless the request is cancelled. -/
theorem Tracks.reads {x : Signal} {handed : List Entry} {p : Generation × Scene}
    (h : g.Tracks settings.flushChars tokens events) (hreads : g.Reads settings s x handed p) :
    ∃ new, p.2.told = new.reverse ++ s.told ∧ (p.2.cancelled = true ∨
      p.1.Tracks settings.flushChars (tokens ++ Entry.tokens handed) (events ++ new)) := by
  obtain ⟨pieces, hrelayed⟩ := h.exists_relayed
  have hquiet : ∀ {g' : Generation}, g'.Tracks settings.flushChars tokens events →
      g'.Tracks settings.flushChars (tokens ++ []) (events ++ []) := by
    intro g' h'
    rwa [List.append_nil, List.append_nil]
  cases hreads with
  | opens hreader _ =>
      refine ⟨[], rfl, .inr (hquiet ?_)⟩
      unfold Tracks at h ⊢
      rw [hreader] at h
      exact h.imp fun _ h => h.congr rfl rfl rfl rfl
  | opensInVain _ hcancelled => exact ⟨[], rfl, .inl hcancelled⟩
  | takes hreader f =>
      by_cases hcancelled : s.cancelled = true
      · rw [Generation.token, if_pos hcancelled]
        exact ⟨[], rfl, .inl hcancelled⟩
      · obtain ⟨pieces, hrelaying⟩ := h.relaying hreader
        obtain ⟨new, htold, htracks⟩ := hrelaying.token hreader (by simpa using hcancelled) f
        exact ⟨new, htold, .inr htracks⟩
  | ends hreader =>
      obtain ⟨pieces, hrelaying⟩ := h.relaying hreader
      obtain ⟨new, htold, htracks⟩ := hrelaying.ended hreader s
      refine ⟨new, htold, .inr ?_⟩
      rwa [Entry.tokens, List.filterMap_nil, List.append_nil]
  | fails _ why => exact ⟨[], rfl, .inr (hquiet (tracks_finish hrelayed why))⟩
  | settles hreader =>
      unfold Tracks at h
      rw [hreader] at h
      have hsettled : (g.finish none).Tracks settings.flushChars tokens events := h
      exact ⟨[], rfl, .inr (hquiet hsettled)⟩
  | expires => exact ⟨[], rfl, .inr (hquiet (h.congr rfl rfl rfl rfl rfl))⟩
  | cancels => exact ⟨[], Scene.told_cancel s, .inr (hquiet h)⟩
  | waits _ => exact ⟨[], rfl, .inr (hquiet h)⟩

/-- A call of a request that was cancelled comes to nothing. -/
theorem eq_of_outcome? (g : Generation) {result : Except Failure Text}
    (hcancelled : s.cancelled = true) (h : g.outcome? settings s = some result) :
    result = .error cancelledFailure := by
  unfold outcome? at h
  split at h
  · cases h
  · rw [if_pos hcancelled] at h
    exact (Option.some.inj h).symm
  · rw [if_pos hcancelled] at h
    exact (Option.some.inj h).symm

theorem of_outcome?_eq_ok (g : Generation) {output : Text}
    (h : g.outcome? settings s = some (.ok output)) :
    g.reader = .stopped none ∧ g.output = output := by
  unfold outcome? at h
  split at h
  · cases h
  · next failure hreader =>
      split at h
      · cases h
      · cases failure with
        | some why => cases h
        | none =>
            cases h
            exact ⟨hreader, rfl⟩
  · split at h
    · cases h
    · split at h <;> cases h

end Generation

/-! ### Ladders -/

namespace Ladder

variable {settings : Settings} {l : Ladder} {s : Scene}

/-- What the attempt at hand has shown by the time that its ladder is so far. -/
def Tracks (flushChars : Int) (l : Ladder) (tokens : List Fragment) (events : List Event) : Prop :=
  match l.course with
  | .running g => g.Tracks flushChars tokens events
  | .closing (.ok output) => ∃ pieces, Conveyed flushChars output tokens events pieces
  | .ended (.ok output) => ∃ pieces, Conveyed flushChars output tokens events pieces
  | _ => ∃ pieces, Relayed flushChars tokens events pieces

theorem Tracks.exists_relayed (h : l.Tracks flushChars tokens events) :
    ∃ pieces, Relayed flushChars tokens events pieces := by
  unfold Tracks at h
  split at h
  · exact Generation.Tracks.exists_relayed h
  · exact h.imp fun _ h => h.relayed
  · exact h.imp fun _ h => h.relayed
  · exact h

theorem tracks_ended {result : Except Failure Text} (h : l.Tracks flushChars tokens events)
    (hcourse : l.course = .closing result) : (l.finish result).Tracks flushChars tokens events := by
  unfold Tracks at h
  rw [hcourse] at h
  cases result with
  | error why => exact h
  | ok output => exact h

/-- A fresh attempt has shown nothing. -/
theorem tracks_enter (l : Ladder) (s : Scene) (flushChars : Int) :
    (l.enter s).Tracks flushChars [] [] := by
  unfold enter
  split
  · exact ⟨[], .silent⟩
  · exact ⟨[], .silent, nofun, ⟨[], rfl, rfl⟩, rfl, rfl, by rintro _ ⟨⟩; rfl⟩

theorem course_of_result? {result : Except Failure Text} (h : l.result? = some result) :
    l.course = .ended result := by
  unfold result? at h
  split at h
  · next heq => rw [heq, Option.some.inj h]
  · cases h

theorem Tracks.conveyed {output : Text} (h : l.Tracks flushChars tokens events)
    (houtput : l.result? = some (.ok output)) :
    ∃ pieces, Conveyed flushChars output tokens events pieces := by
  unfold Tracks at h
  rwa [course_of_result? houtput] at h

/-- The request was cancelled, and the ladder does not end with an output. -/
def Lost (l : Ladder) (s : Scene) : Prop :=
  s.cancelled = true ∧
    ∀ output, l.course ≠ .closing (.ok output) ∧ l.course ≠ .ended (.ok output)

theorem Lost.step (h : l.Lost s) (settings : Settings) (x : Signal) :
    (l.step settings s x).1.Lost (l.step settings s x).2 := by
  obtain ⟨hcancelled, hcourse⟩ := h
  refine ⟨(grows_step settings l s x).cancelled hcancelled, ?_⟩
  have hgoes := l.goes_step settings s x
  generalize l.step settings s x = p at hgoes ⊢
  generalize l.handed x = handed at hgoes
  cases hgoes with
  | turns _ =>
      unfold turn
      split
      · exact fun _ => ⟨nofun, nofun⟩
      · split
        · exact hcourse
        · next result houtcome =>
            rw [Generation.eq_of_outcome? _ hcancelled houtcome]
            exact fun _ => ⟨nofun, nofun⟩
  | reads _ _ => exact fun _ => ⟨nofun, nofun⟩
  | @proceeds result hclosing =>
      cases result with
      | error why => exact fun _ => ⟨nofun, nofun⟩
      | ok output => exact absurd hclosing (hcourse output).1
  | cancels _ => exact hcourse
  | waits _ _ => exact hcourse

/-- A call that is decided has shown what it comes to. -/
theorem tracks_closing {g : Generation} {result : Except Failure Text}
    (h : g.Tracks flushChars tokens events)
    (houtcome : g.outcome? settings s = some result) :
    ({ l with course := .closing result } : Ladder).Tracks flushChars tokens events := by
  cases result with
  | error why => exact h.exists_relayed
  | ok output =>
      obtain ⟨hreader, houtput⟩ := g.of_outcome?_eq_ok houtcome
      unfold Generation.Tracks at h
      rw [hreader, houtput] at h
      exact h

theorem Tracks.turn {g : Generation} (h : g.Tracks flushChars tokens events) (l : Ladder)
    (hcourse : l.course = .running g) (s : Scene) : (l.turn settings s g).2.told = s.told ∧
      (l.turn settings s g).1.Tracks flushChars tokens events := by
  unfold Ladder.turn
  split
  · next hreader =>
      refine ⟨rfl, ?_⟩
      unfold Generation.Tracks at h
      rw [hreader] at h
      exact h.imp fun _ h => h.congr rfl rfl rfl rfl
  · split
    · refine ⟨rfl, ?_⟩
      unfold Tracks
      rwa [hcourse]
    · next houtcome => exact ⟨Scene.told_release s, tracks_closing h houtcome⟩

theorem Tracks.proceed {result : Except Failure Text} (h : l.Tracks flushChars tokens events)
    (hcourse : l.course = .closing result) (s : Scene) :
    ((l.proceed s result).2.told = s.told ∧
      (l.proceed s result).1.Tracks flushChars tokens events) ∨
    ((l.proceed s result).2.told = .retryClear :: s.told ∧
      (l.proceed s result).1.Tracks flushChars [] []) := by
  have hended := tracks_ended h hcourse
  unfold Ladder.proceed
  split
  · exact .inl ⟨rfl, hended⟩
  · exact .inl ⟨rfl, hended⟩
  · split
    · exact .inl ⟨rfl, hended⟩
    · exact .inl ⟨rfl, h.exists_relayed⟩
    · next rung _ =>
        have htold : (s.emit .retryClear).1.told = .retryClear :: s.told := Scene.told_emit _ _
        split
        · next heq =>
            rw [heq] at htold
            exact .inr ⟨htold, [], .silent⟩
        · next s' heq =>
            rw [heq] at htold
            exact .inr ⟨htold, tracks_enter _ s' flushChars⟩

/-- **What a step makes of the attempt at hand**: it is lost, goes on, or is taken back. -/
theorem Tracks.goes {x : Signal} {handed : List Entry} {p : Ladder × Scene}
    (h : l.Tracks settings.flushChars tokens events) (hgoes : l.Goes settings s x handed p) :
    p.1.Lost p.2 ∨
    (∃ new, p.2.told = new.reverse ++ s.told ∧
      p.1.Tracks settings.flushChars (tokens ++ Entry.tokens handed) (events ++ new)) ∨
    (p.2.told = .retryClear :: s.told ∧ handed = [] ∧ p.1.Tracks settings.flushChars [] []) := by
  have hquiet : ∀ {l' : Ladder}, l'.Tracks settings.flushChars tokens events →
      l'.Tracks settings.flushChars (tokens ++ []) (events ++ []) := by
    intro l' h'
    rwa [List.append_nil, List.append_nil]
  cases hgoes with
  | turns hcourse =>
      unfold Tracks at h
      rw [hcourse] at h
      obtain ⟨htold, htracks⟩ := turn h l hcourse s
      exact .inr (.inl ⟨[], htold, hquiet htracks⟩)
  | reads hcourse hreads =>
      unfold Tracks at h
      rw [hcourse] at h
      obtain ⟨new, htold, hcancelled | htracks⟩ := Generation.Tracks.reads h hreads
      · exact .inl ⟨hcancelled, fun _ => ⟨nofun, nofun⟩⟩
      · exact .inr (.inl ⟨new, htold, htracks⟩)
  | proceeds hcourse =>
      rcases proceed h hcourse s with ⟨htold, htracks⟩ | ⟨htold, htracks⟩
      · exact .inr (.inl ⟨[], htold, hquiet htracks⟩)
      · exact .inr (.inr ⟨htold, rfl, htracks⟩)
  | cancels _ => exact .inr (.inl ⟨[], Scene.told_cancel s, hquiet h⟩)
  | waits _ _ => exact .inr (.inl ⟨[], rfl, hquiet h⟩)

end Ladder

/-! ### Transcripts -/

namespace Transcript

variable {settings : Settings} {t : Transcript} {closed : List (List Entry)} {a : List Entry}

/-- The attempts that were taken back have been relayed, and the one at hand is tracked. -/
def Shows (flushChars : Int) (t : Transcript) : Prop :=
  ∃ (closed : List (List Entry)) (a : List Entry),
    t.entries = closed.flatMap (· ++ [.act (.event .retryClear)]) ++ a ∧
    (∀ b ∈ closed, ∃ pieces, Relayed flushChars (Entry.tokens b) (Entry.events b) pieces) ∧
    t.ladder.Tracks flushChars (Entry.tokens a) (Entry.events a)

theorem shows_start (errand : Option Errand) (rung : Rung) (options : SamplingOptions)
    (scene : Scene) (flushChars : Int) : (start errand rung options scene).Shows flushChars :=
  ⟨[], [], rfl, by simp, Ladder.tracks_enter _ scene flushChars⟩

/-- **One step preserves it**, unless the ladder is lost by it. -/
theorem Shows.take (h : t.Shows settings.flushChars) (x : Signal) :
    (t.take settings x).ladder.Lost (t.take settings x).scene ∨
      (t.take settings x).Shows settings.flushChars := by
  obtain ⟨closed, a, hentries, hclosed, htracks⟩ := h
  obtain ⟨acts, -, htold, hentries'⟩ := exists_entries_take settings t x
  rw [hentries, List.append_assoc] at hentries'
  rcases htracks.goes (t.ladder.goes_step settings t.scene x) with
    hlost | ⟨new, htold', hstep⟩ | ⟨htold', hnone, hstep⟩
  · exact .inl hlost
  · right
    have hnew : Act.events acts = new :=
      List.reverse_inj.1 (List.append_cancel_right (htold.symm.trans htold'))
    refine ⟨closed, _, hentries', hclosed, ?_⟩
    simpa [ladder_take, t.ladder.events_handed, hnew] using hstep
  · right
    have hclear : Entry.events (acts.map .act) = [.retryClear] := by
      have hreverse : (Act.events acts).reverse = [.retryClear] :=
        List.append_cancel_right (htold.symm.trans htold')
      rw [Entry.events_map_act, ← List.reverse_reverse (Act.events acts), hreverse]
      rfl
    -- what is done after the preview was taken back belongs to the next attempt
    obtain ⟨front, e, later, hacts, hfront, he, hlater⟩ := List.filterMap_eq_cons_iff.1 hclear
    have htokens := Entry.tokens_map_act acts
    rw [hacts, Entry.tokens, List.filterMap_append, List.append_eq_nil_iff] at htokens
    rw [Entry.eq_of_event? he] at hacts htokens
    obtain ⟨pieces, hrelayed⟩ := htracks.exists_relayed
    refine ⟨closed ++ [a ++ front], later, ?_, ?_, ?_⟩
    · rw [hentries', hnone, hacts]
      simp
    · refine List.forall_mem_append.2 ⟨hclosed, fun b hb => ⟨pieces, ?_⟩⟩
      rw [List.mem_singleton.1 hb, Entry.tokens_append, Entry.events_append, Entry.tokens,
        Entry.tokens, htokens.1, Entry.events, Entry.events, List.filterMap_eq_nil_iff.2 hfront,
        List.append_nil, List.append_nil]
      exact hrelayed
    · have hlater' : Entry.events later = [] := hlater
      have htokens' : Entry.tokens later = [] := htokens.2
      rw [hlater', htokens']
      exact hstep

theorem lost_or_shows (settings : Settings) (errand : Option Errand) (rung : Rung)
    (options : SamplingOptions) (scene : Scene) (xs : List Signal) :
    let t := (start errand rung options scene).after settings xs
    t.ladder.Lost t.scene ∨ t.Shows settings.flushChars := by
  refine after_induction (P := fun t => t.ladder.Lost t.scene ∨ t.Shows settings.flushChars) xs
    (.inr (shows_start errand rung options scene _)) fun t x h => ?_
  rcases h with hlost | hshows
  · exact .inl (hlost.step settings x)
  · exact hshows.take x

theorem isClear_of_relayed {flushChars : Int} {pieces : List Text}
    (h : Relayed flushChars (Entry.tokens a) (Entry.events a) pieces) :
    ∀ e ∈ a, e.isClear = false := by
  refine fun e he => Bool.eq_false_iff.2 fun hclear => h.not_mem_retryClear ?_
  exact List.mem_filterMap.2 ⟨e, he, Entry.event?_of_isClear hclear⟩

theorem splitOnP_attempts (hclosed : ∀ b ∈ closed, ∀ e ∈ b, e.isClear = false)
    (ha : ∀ e ∈ a, e.isClear = false) :
    (closed.flatMap (· ++ [Entry.act (.event .retryClear)]) ++ a).splitOnP Entry.isClear =
      closed ++ [a] := by
  induction closed with
  | nil => exact List.splitOnP_eq_singleton ha
  | cons b closed ih =>
      obtain ⟨hb, hclosed⟩ := List.forall_mem_cons.1 hclosed
      rw [List.flatMap_cons, List.append_assoc, List.append_assoc, List.singleton_append,
        List.splitOnP_append_cons _ _ rfl, List.splitOnP_eq_singleton hb, ih hclosed]
      rfl

theorem Shows.exists_attempts {flushChars : Int} (h : t.Shows flushChars) :
    ∃ earlier last, t.entries.splitOnP Entry.isClear = earlier ++ [last] ∧
      (∀ b ∈ earlier ++ [last],
        ∃ pieces, Relayed flushChars (Entry.tokens b) (Entry.events b) pieces) ∧
      t.ladder.Tracks flushChars (Entry.tokens last) (Entry.events last) := by
  obtain ⟨closed, a, hentries, hclosed, htracks⟩ := h
  obtain ⟨pieces, hrelayed⟩ := htracks.exists_relayed
  refine ⟨closed, a, ?_, ?_, htracks⟩
  · rw [hentries]
    refine splitOnP_attempts (fun b hb => ?_) (isClear_of_relayed hrelayed)
    obtain ⟨pieces, hrelayed⟩ := hclosed b hb
    exact isClear_of_relayed hrelayed
  · refine List.forall_mem_append.2 ⟨hclosed, fun b hb => ?_⟩
    rw [List.mem_singleton.1 hb]
    exact ⟨pieces, hrelayed⟩

/-- **The streamed preview is the text that is used.** Unless the request is cancelled, every attempt
announces its first token and then shows its tokens in pieces, of which only the last may be short;
and where a ladder ends with an output, that is what the tokens and the pieces of its last attempt
come to. -/
theorem preview_eq_output (settings : Settings) (errand : Option Errand) (rung : Rung)
    (options : SamplingOptions) (scene : Scene) (xs : List Signal) :
    let t := (start errand rung options scene).after settings xs
    let attempts := t.entries.splitOnP Entry.isClear
    (t.scene.cancelled = false → ∀ a ∈ attempts,
      ∃ pieces, Relayed settings.flushChars (Entry.tokens a) (Entry.events a) pieces) ∧
    ∀ output, t.ladder.result? = some (.ok output) →
      (∀ a ∈ attempts,
        ∃ pieces, Relayed settings.flushChars (Entry.tokens a) (Entry.events a) pieces) ∧
      ∃ earlier last pieces, attempts = earlier ++ [last] ∧
        Relayed settings.flushChars (Entry.tokens last) (Entry.events last) pieces ∧
        pieces.flatten = output ∧ Fragment.join 0 (Entry.tokens last) = .ok output := by
  intro t attempts
  rcases lost_or_shows settings errand rung options scene xs with hlost | hshows
  · refine ⟨fun hgoing => ?_, fun output houtput => ?_⟩
    · rw [hlost.1] at hgoing
      cases hgoing
    · exact absurd (Ladder.course_of_result? houtput) (hlost.2 output).2
  · obtain ⟨earlier, last, hattempts, hrelayed, htracks⟩ := hshows.exists_attempts
    have hall : ∀ a ∈ attempts,
        ∃ pieces, Relayed settings.flushChars (Entry.tokens a) (Entry.events a) pieces :=
      fun a ha => hrelayed a (hattempts ▸ ha)
    refine ⟨fun _ => hall, fun output houtput => ⟨hall, ?_⟩⟩
    obtain ⟨pieces, hconveyed⟩ := htracks.conveyed houtput
    exact ⟨earlier, last, pieces, hattempts, hconveyed.relayed, hconveyed.shown, hconveyed.joined⟩

/-- A blank output is taken back, and the next one is shown in one piece. -/
theorem preview_of_second_attempt :
    let report := Report.ofText "f()".toList "auto".toList Chunk.defaultSize
    let errand : Errand := { code := "f()".toList, report, focus := .performance, maxRetries := 2 }
    let options : SamplingOptions := { maxTokens := 300, temperature := .finite 0 }
    let call (tokens : List String) : List Signal := [.resume, .opened] ++
      tokens.map (fun t => .token (.text t.toList)) ++ [.ended, .settled, .resume, .resume]
    let signals := call [" "] ++ call ["g", "()"]
    let scene : Scene := { host := fun _ => .pass }
    ((start (some errand) ⟨0, 0, []⟩ options scene).after {} signals).ladder.result? =
      some (.ok "g()".toList) ∧
    ∃ first last pieces, ((start (some errand) ⟨0, 0, []⟩ options scene).after {}
        signals).entries.splitOnP Entry.isClear = [first, last] ∧
      Relayed 60 (Entry.tokens last) (Entry.events last) pieces ∧ pieces.flatten = "g()".toList := by
  intro report errand options call signals scene
  have hdone : ((start (some errand) ⟨0, 0, []⟩ options scene).after {}
      signals).ladder.result?.bind Except.toOption = some "g()".toList := by
    decide +kernel
  have htwo : (((start (some errand) ⟨0, 0, []⟩ options scene).after {}
      signals).entries.splitOnP Entry.isClear).length = 2 := by
    decide +kernel
  obtain ⟨result, hresult, hok⟩ := Option.bind_eq_some_iff.1 hdone
  cases result with
  | error why => cases hok
  | ok output =>
      obtain rfl : output = "g()".toList := Option.some.inj hok
      obtain ⟨-, earlier, last, pieces, hattempts, hrelayed, hshown, -⟩ :=
        (preview_eq_output {} (some errand) ⟨0, 0, []⟩ options scene signals).2 _ hresult
      rw [hattempts, List.length_append, List.length_singleton, Nat.add_left_inj] at htwo
      obtain ⟨first, rfl⟩ := List.length_eq_one_iff.1 htwo
      exact ⟨hresult, first, last, pieces, hattempts, hrelayed, hshown⟩

end Transcript
end Refinery
