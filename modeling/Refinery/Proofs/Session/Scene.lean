import Refinery.Session.Scene

/-!
What is done on a scene is only ever added to: every operation puts new acts in front of those that
are there, and what the host is told are the events among them. A cancellation that has reached a
scene stays, also one that the host asks for when it is told an event.
-/

namespace Refinery

namespace Act

/-- The event that an act is. -/
def event? : Act → Option Event
  | .event e => some e
  | _ => none

/-- The acts of a request before its end: no event that ends it, and no binding of its name. -/
def isPlain : Act → Bool
  | .event e => !e.isTerminal
  | .bind _ => false
  | .unbind => false
  | _ => true

/-- The acts of calling the engine. -/
def isCalling : Act → Bool
  | .event .streamActive => true
  | .event (.chunk _) => true
  | .event .retryClear => true
  | .call .. => true
  | .stop _ => true
  | _ => false

/-- The acts of reading what a call streams: it is shown, and a handle is told to stop. -/
def isShowing : Act → Bool
  | .event .streamActive => true
  | .event (.chunk _) => true
  | .stop _ => true
  | _ => false

theorem isCalling_of_isShowing {a : Act} (h : a.isShowing = true) : a.isCalling = true := by
  unfold isShowing at h
  split at h <;> first | rfl | exact absurd h Bool.false_ne_true

theorem isPlain_of_isCalling {a : Act} (h : a.isCalling = true) : a.isPlain = true := by
  unfold isCalling at h
  split at h <;> first | rfl | exact absurd h Bool.false_ne_true

/-- The events among some acts. -/
def events (acts : List Act) : List Event := acts.filterMap event?

@[simp] theorem events_nil : events [] = [] := rfl

@[simp] theorem events_append (as bs : List Act) : events (as ++ bs) = events as ++ events bs :=
  List.filterMap_append

theorem events_reverse (acts : List Act) : events acts.reverse = (events acts).reverse :=
  List.filterMap_reverse

theorem events_cons_of_event? {a : Act} (h : a.event? = none) (as : List Act) :
    events (a :: as) = events as := List.filterMap_cons_none h

@[simp] theorem events_event (e : Event) (as : List Act) :
    events (.event e :: as) = e :: events as := rfl

/-- The prompt and the options of a call. -/
def call? : Act → Option (Text × SamplingOptions)
  | .call _ prompt options => some (prompt, options)
  | _ => none

/-- The calls of the engine among some acts. -/
def called (acts : List Act) : List (Text × SamplingOptions) := acts.filterMap call?

@[simp] theorem called_nil : called [] = [] := rfl

@[simp] theorem called_append (as bs : List Act) : called (as ++ bs) = called as ++ called bs :=
  List.filterMap_append

theorem called_reverse (acts : List Act) : called acts.reverse = (called acts).reverse :=
  List.filterMap_reverse

theorem called_cons_of_call? {a : Act} (h : a.call? = none) (as : List Act) :
    called (a :: as) = called as := List.filterMap_cons_none h

theorem called_eq_nil {as : List Act} (h : ∀ a ∈ as, a.call? = none) : called as = [] :=
  List.filterMap_eq_nil_iff.2 h

/-- Whether an act is an event or a phase. -/
def isMark : Act → Bool
  | .event _ => true
  | .phase _ => true
  | _ => false

/-- The events and the phases among some acts. -/
def marks (acts : List Act) : List Act := acts.filter isMark

@[simp] theorem marks_nil : marks [] = [] := rfl

@[simp] theorem marks_append (as bs : List Act) : marks (as ++ bs) = marks as ++ marks bs :=
  List.filter_append as bs

theorem events_marks (acts : List Act) : events (marks acts) = events acts := by
  induction acts with
  | nil => rfl
  | cons a as ih =>
      cases a with
      | event e =>
          show e :: events (marks as) = e :: events as
          rw [ih]
      | phase p => exact ih
      | _ => exact ih

/-- Whether an act calls nothing. -/
def isCallFree (a : Act) : Bool := a.call?.isNone

theorem not_isTerminal_of_mem_events {as : List Act} (h : ∀ a ∈ as, a.isPlain = true) :
    ∀ e ∈ events as, e.isTerminal = false := by
  intro e he
  obtain ⟨a, ha, hae⟩ := List.mem_filterMap.1 he
  have hplain := h a ha
  cases a with
  | event e' =>
      cases hae
      simpa [isPlain] using hplain
  | _ => cases hae

end Act

namespace Scene

section Fields

variable (s : Scene) (handle : Option Nat) (e : Event)

@[simp] theorem host_stop : (s.stop handle).host = s.host := by cases handle <;> rfl

@[simp] theorem admitted_stop : (s.stop handle).admitted = s.admitted := by cases handle <;> rfl

@[simp] theorem context_stop : (s.stop handle).context = s.context := by cases handle <;> rfl

@[simp] theorem told_stop : (s.stop handle).told = s.told := by cases handle <;> rfl

@[simp] theorem calls_stop : (s.stop handle).calls = s.calls := by cases handle <;> rfl

@[simp] theorem host_cancel : s.cancel.host = s.host := by unfold cancel; split <;> simp

@[simp] theorem admitted_cancel : s.cancel.admitted = s.admitted := by unfold cancel; split <;> simp

@[simp] theorem told_cancel : s.cancel.told = s.told := by unfold cancel; split <;> simp

@[simp] theorem calls_cancel : s.cancel.calls = s.calls := by unfold cancel; split <;> simp

@[simp] theorem hint_cancel : s.cancel.context.hint = s.context.hint := by
  unfold cancel
  split <;> simp [Context.cancel]

@[simp] theorem handle_cancel : s.cancel.context.handle = s.context.handle := by
  unfold cancel
  split <;> simp [Context.cancel]

theorem cancelled_cancel (h : s.admitted = true) : s.cancel.cancelled = true := by
  simp [cancel, h, cancelled, Context.cancel]

theorem cancelled_cancel_of_cancelled (h : s.cancelled = true) : s.cancel.cancelled = true := by
  unfold cancel
  split
  · simp [cancelled, Context.cancel]
  · exact h

@[simp] theorem host_release : s.release.host = s.host := by simp [release]

@[simp] theorem admitted_release : s.release.admitted = s.admitted := by simp [release]

@[simp] theorem told_release : s.release.told = s.told := by simp [release]

@[simp] theorem calls_release : s.release.calls = s.calls := by simp [release]

@[simp] theorem cancelled_release : s.release.cancelled = s.cancelled := by
  simp [release, cancelled, Context.detach]

@[simp] theorem hint_release : s.release.context.hint = s.context.hint := by
  simp [release, Context.detach]

@[simp] theorem handle_release : s.release.context.handle = none := by
  simp [release, Context.detach]

@[simp] theorem host_emit : (s.emit e).1.host = s.host := by
  unfold emit
  simp only
  split <;> simp

@[simp] theorem admitted_emit : (s.emit e).1.admitted = s.admitted := by
  unfold emit
  simp only
  split <;> simp

@[simp] theorem told_emit : (s.emit e).1.told = e :: s.told := by
  unfold emit
  simp only
  split <;> simp

@[simp] theorem calls_emit : (s.emit e).1.calls = s.calls := by
  unfold emit
  simp only
  split <;> simp

@[simp] theorem hint_emit : (s.emit e).1.context.hint = s.context.hint := by
  unfold emit
  simp only
  split <;> simp

@[simp] theorem handle_emit : (s.emit e).1.context.handle = s.context.handle := by
  unfold emit
  simp only
  split <;> simp

theorem cancelled_emit_of_cancelled (h : s.cancelled = true) : (s.emit e).1.cancelled = true := by
  unfold emit
  simp only
  split
  · exact h
  · exact cancelled_cancel_of_cancelled _ h
  · exact h

theorem cancelled_emit_of_not_admitted {s : Scene} (h : s.admitted = false) (e : Event) :
    (s.emit e).1.cancelled = s.cancelled := by
  unfold emit
  simp only
  split
  · rfl
  · simp [cancel, h, cancelled]
  · rfl

/-- A host can cancel its request when it is told an event. -/
theorem cancelled_emit_of_host (hadmitted : s.admitted = true)
    (hhost : s.host (e :: s.told) = .cancel) : (s.emit e).1.cancelled = true := by
  unfold emit
  simp only [hhost]
  exact cancelled_cancel _ hadmitted

end Fields

/-! ### Growth -/

/-- `s'` is `s` after some operations, for all of whose acts `P` holds. -/
inductive Grows (P : Act → Bool) (s : Scene) : Scene → Prop
  | refl : Grows P s s
  | act {s' : Scene} {a : Act} (h : Grows P s s') (ha : P a = true) (he : a.event? = none) :
      Grows P s (s'.act a)
  | emit {s' : Scene} {e : Event} (h : Grows P s s') (hstop : ∀ n, P (.stop n) = true)
      (he : P (.event e) = true) : Grows P s (s'.emit e).1
  | cancel {s' : Scene} (h : Grows P s s') (hstop : ∀ n, P (.stop n) = true) : Grows P s s'.cancel
  | release {s' : Scene} (h : Grows P s s') (hstop : ∀ n, P (.stop n) = true) :
      Grows P s s'.release
  | attach {s' : Scene} (h : Grows P s s') (n : Nat) :
      Grows P s { s' with context := s'.context.attach n }
  | turn {s' : Scene} (h : Grows P s s') :
      Grows P s { s' with context := s'.context.turn hints.length }
  | call {s' : Scene} {prompt : Text} {options : SamplingOptions} (h : Grows P s s')
      (hc : P (.call s'.calls prompt options) = true) : Grows P s (s'.call prompt options).1

variable {P Q : Act → Bool} {s s' s'' : Scene}

theorem Grows.trans (h : Grows P s s') (h' : Grows P s' s'') : Grows P s s'' := by
  induction h' with
  | refl => exact h
  | act _ ha he ih => exact ih.act ha he
  | emit _ hstop he ih => exact ih.emit hstop he
  | cancel _ hstop ih => exact ih.cancel hstop
  | release _ hstop ih => exact ih.release hstop
  | attach _ n ih => exact ih.attach n
  | turn _ ih => exact ih.turn
  | call _ hc ih => exact ih.call hc

theorem Grows.mono (h : Grows P s s') (hPQ : ∀ {a}, P a = true → Q a = true) : Grows Q s s' := by
  induction h with
  | refl => exact .refl
  | act _ ha he ih => exact ih.act (hPQ ha) he
  | emit _ hstop he ih => exact ih.emit (fun n => hPQ (hstop n)) (hPQ he)
  | cancel _ hstop ih => exact ih.cancel fun n => hPQ (hstop n)
  | release _ hstop ih => exact ih.release fun n => hPQ (hstop n)
  | attach _ n ih => exact ih.attach n
  | turn _ ih => exact ih.turn
  | call _ hc ih => exact ih.call (hPQ hc)

theorem grows_act {a : Act} (s : Scene) (h : P a = true) (he : a.event? = none) :
    Grows P s (s.act a) := Grows.refl.act h he

theorem grows_cancel (hstop : ∀ n, P (.stop n) = true) (s : Scene) : Grows P s s.cancel :=
  Grows.refl.cancel hstop

theorem grows_release (hstop : ∀ n, P (.stop n) = true) (s : Scene) : Grows P s s.release :=
  Grows.refl.release hstop

theorem grows_emit (hstop : ∀ n, P (.stop n) = true) {e : Event} (s : Scene)
    (he : P (.event e) = true) : Grows P s (s.emit e).1 := Grows.refl.emit hstop he

theorem grows_tell (hstop : ∀ n, P (.stop n) = true) {e : Event} (s : Scene)
    (he : P (.event e) = true) : Grows P s (s.tell e) := grows_emit hstop s he

theorem grows_call {prompt : Text} {options : SamplingOptions} (s : Scene)
    (h : P (.call s.calls prompt options) = true) : Grows P s (s.call prompt options).1 :=
  Grows.refl.call h

/-- Some more acts come in front of those that are there. -/
def Adds (P : Act → Bool) (s s' : Scene) : Prop :=
  ∃ new, s'.acts = new ++ s.acts ∧ s'.told = Act.events new ++ s.told ∧ ∀ a ∈ new, P a = true

theorem Adds.trans (h : Adds P s s') (h' : Adds P s' s'') : Adds P s s'' := by
  obtain ⟨new, hacts, htold, hnew⟩ := h
  obtain ⟨new', hacts', htold', hnew'⟩ := h'
  refine ⟨new' ++ new, ?_, ?_, ?_⟩
  · rw [hacts', hacts, List.append_assoc]
  · rw [htold', htold, Act.events_append, List.append_assoc]
  · intro a ha
    rcases List.mem_append.1 ha with ha | ha
    · exact hnew' a ha
    · exact hnew a ha

theorem adds_refl (P : Act → Bool) (s : Scene) : Adds P s s :=
  ⟨[], rfl, rfl, fun _ h => absurd h List.not_mem_nil⟩

theorem adds_act {a : Act} (s : Scene) (h : P a = true) (he : a.event? = none) :
    Adds P s (s.act a) := by
  refine ⟨[a], rfl, ?_, fun _ hb => List.mem_singleton.1 hb ▸ h⟩
  rw [Act.events_cons_of_event? he]
  rfl

theorem adds_stop (hstop : ∀ n, P (.stop n) = true) (s : Scene) (handle : Option Nat) :
    Adds P s (s.stop handle) := by
  cases handle with
  | none => exact adds_refl P s
  | some n => exact adds_act s (hstop n) rfl

theorem adds_cancel (hstop : ∀ n, P (.stop n) = true) (s : Scene) : Adds P s s.cancel := by
  unfold cancel
  split
  · exact adds_stop hstop { s with context := s.context.cancel.1 } _
  · exact adds_refl P s

theorem adds_emit (hstop : ∀ n, P (.stop n) = true) {e : Event} (s : Scene)
    (he : P (.event e) = true) : Adds P s (s.emit e).1 := by
  have hnoted : Adds P s { s with told := e :: s.told, acts := .event e :: s.acts } :=
    ⟨[.event e], rfl, rfl, fun _ hb => List.mem_singleton.1 hb ▸ he⟩
  unfold emit
  simp only
  split
  · exact hnoted
  · exact hnoted.trans (adds_cancel hstop _)
  · exact hnoted

theorem Grows.adds (h : Grows P s s') : Adds P s s' := by
  induction h with
  | refl => exact adds_refl P s
  | act _ ha he ih => exact ih.trans (adds_act _ ha he)
  | emit _ hstop he ih => exact ih.trans (adds_emit hstop _ he)
  | cancel _ hstop ih => exact ih.trans (adds_cancel hstop _)
  | @release s₁ _ hstop ih =>
      exact ih.trans (adds_stop hstop { s₁ with context := s₁.context.detach.1 } _)
  | attach _ n ih => exact ih
  | turn _ ih => exact ih
  | @call s₁ prompt options _ hc ih =>
      exact ih.trans ⟨[.call s₁.calls prompt options], rfl, rfl,
        fun _ hb => List.mem_singleton.1 hb ▸ hc⟩

theorem Grows.called_eq (h : Grows Act.isCallFree s s') :
    Act.called s'.acts = Act.called s.acts := by
  obtain ⟨new, hacts, -, hnew⟩ := h.adds
  rw [hacts, Act.called_append, Act.called_eq_nil fun a ha => Option.isNone_iff_eq_none.1 (hnew a ha),
    List.nil_append]

@[simp] theorem marks_stop (s : Scene) (handle : Option Nat) :
    Act.marks (s.stop handle).acts = Act.marks s.acts := by
  cases handle <;> rfl

@[simp] theorem marks_cancel (s : Scene) : Act.marks s.cancel.acts = Act.marks s.acts := by
  unfold cancel
  split
  · exact marks_stop _ _
  · rfl

@[simp] theorem marks_release (s : Scene) : Act.marks s.release.acts = Act.marks s.acts :=
  marks_stop _ _

@[simp] theorem marks_tell (s : Scene) (e : Event) :
    Act.marks (s.tell e).acts = .event e :: Act.marks s.acts := by
  unfold tell emit
  simp only
  split
  · rfl
  · exact marks_cancel _
  · rfl

@[simp] theorem called_tell (s : Scene) (e : Event) :
    Act.called (s.tell e).acts = Act.called s.acts := (grows_tell (fun _ => rfl) s rfl).called_eq

@[simp] theorem called_cancel (s : Scene) : Act.called s.cancel.acts = Act.called s.acts :=
  (grows_cancel (fun _ => rfl) s).called_eq

@[simp] theorem called_release (s : Scene) : Act.called s.release.acts = Act.called s.acts :=
  (grows_release (fun _ => rfl) s).called_eq

theorem Grows.host_eq (h : Grows P s s') : s'.host = s.host := by
  induction h with
  | refl => rfl
  | act _ _ _ ih => exact ih
  | emit _ _ _ ih => rw [host_emit, ih]
  | cancel _ _ ih => rw [host_cancel, ih]
  | release _ _ ih => rw [host_release, ih]
  | attach _ _ ih => exact ih
  | turn _ ih => exact ih
  | call _ _ ih => exact ih

theorem Grows.admitted_eq (h : Grows P s s') : s'.admitted = s.admitted := by
  induction h with
  | refl => rfl
  | act _ _ _ ih => exact ih
  | emit _ _ _ ih => rw [admitted_emit, ih]
  | cancel _ _ ih => rw [admitted_cancel, ih]
  | release _ _ ih => rw [admitted_release, ih]
  | attach _ _ ih => exact ih
  | turn _ ih => exact ih
  | call _ _ ih => exact ih

/-- A cancellation stays. -/
theorem Grows.cancelled (h : Grows P s s') (hs : s.cancelled = true) : s'.cancelled = true := by
  induction h with
  | refl => exact hs
  | act _ _ _ ih => exact ih
  | emit _ _ _ ih => exact cancelled_emit_of_cancelled _ _ ih
  | cancel _ _ ih => exact cancelled_cancel_of_cancelled _ ih
  | release _ _ ih => rwa [cancelled_release]
  | attach _ _ ih => exact ih
  | turn _ ih => exact ih
  | call _ _ ih => exact ih

/-- A request that is going has been going all along. -/
theorem Grows.going (h : Grows P s s') (hs' : s'.cancelled = false) : s.cancelled = false := by
  refine Bool.eq_false_iff.2 fun hs => ?_
  rw [h.cancelled hs] at hs'
  cases hs'

/-- There is always a hint to show. -/
theorem Grows.hint_lt (h : Grows P s s') (hs : s.context.hint < hints.length) :
    s'.context.hint < hints.length := by
  induction h with
  | refl => exact hs
  | act _ _ _ ih => exact ih
  | emit _ _ _ ih => rwa [hint_emit]
  | cancel _ _ ih => rwa [hint_cancel]
  | release _ _ ih => rwa [hint_release]
  | attach _ _ ih => exact ih
  | turn _ _ => exact Nat.mod_lt _ (by decide)
  | call _ _ ih => exact ih

/-- A host that has cancelled its request when it was told an event, other than that the request is
done, has it cancelled. -/
def Heeds (s : Scene) : Prop :=
  ∀ e earlier, e :: earlier <:+ s.told → s.host (e :: earlier) = .cancel →
    (∀ o, e ≠ .done o) → s.cancelled = true

theorem Grows.heeds (h : Grows P s s') (hadmitted : s.admitted = true) (hs : s.Heeds) :
    s'.Heeds := by
  induction h with
  | refl => exact hs
  | act _ _ _ ih => exact ih
  | @emit s₁ e hgrows _ _ ih =>
      intro e' earlier hsuffix hhost hdone
      rw [told_emit] at hsuffix
      rw [host_emit] at hhost
      rcases List.suffix_cons_iff.1 hsuffix with heq | hsuffix
      · rw [heq] at hhost
        exact cancelled_emit_of_host _ _ (hgrows.admitted_eq.trans hadmitted) hhost
      · exact cancelled_emit_of_cancelled _ _ (ih e' earlier hsuffix hhost hdone)
  | cancel _ _ ih =>
      intro e earlier hsuffix hhost hdone
      rw [told_cancel] at hsuffix
      rw [host_cancel] at hhost
      exact cancelled_cancel_of_cancelled _ (ih e earlier hsuffix hhost hdone)
  | release _ _ ih =>
      intro e earlier hsuffix hhost hdone
      rw [told_release] at hsuffix
      rw [host_release] at hhost
      rw [cancelled_release]
      exact ih e earlier hsuffix hhost hdone
  | attach _ _ ih => exact ih
  | turn _ ih => exact ih
  | call _ _ ih => exact ih

end Scene
end Refinery
