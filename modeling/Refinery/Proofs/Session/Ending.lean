import Refinery.Log.Journal
import Refinery.Proofs.Session.Run

/-!
The acts of a request from its beginning to its end. They begin with the binding of its name; then
come plain acts; the last ones unbind the name and tell the host one event that ends the request.
-/

namespace Refinery

/-- The last acts of a request that ends with an outcome, or with an error. Between the error and
the end the host can still have a handle stopped. -/
inductive Ending : Option Outcome → List Act → Prop
  | done (o : Outcome) : Ending (some o) [.phase .done, .unbind, .event (.done o)]
  | error (p : Phase) (m : Text) {stops : List Act} (hstops : ∀ a ∈ stops, ∃ n, a = .stop n) :
      Ending none (.phase p :: .event (.error m) :: (stops ++ [.unbind]))

/-- The acts of a request so far: its name is bound. -/
def Begun (acts : List Act) : Prop :=
  ∃ name plain, acts = .bind name :: plain ∧ ∀ a ∈ plain, a.isPlain = true

/-- All acts of a request that was admitted. -/
def Complete (result : Option Outcome) (acts : List Act) : Prop :=
  ∃ before ending, acts = before ++ ending ∧ Begun before ∧ Ending result ending

theorem Begun.append {acts plain : List Act} (h : Begun acts) (hplain : ∀ a ∈ plain, a.isPlain = true) :
    Begun (acts ++ plain) := by
  obtain ⟨name, first, rfl, hfirst⟩ := h
  refine ⟨name, first ++ plain, List.cons_append, ?_⟩
  intro a ha
  rcases List.mem_append.1 ha with ha | ha
  · exact hfirst a ha
  · exact hplain a ha

theorem events_of_stops {stops : List Act} (h : ∀ a ∈ stops, ∃ n, a = .stop n) :
    Act.events stops = [] := by
  refine List.filterMap_eq_nil_iff.2 fun a ha => ?_
  obtain ⟨n, rfl⟩ := h a ha
  rfl

/-- An ending has one event, which tells the result. -/
theorem Ending.events_eq {result : Option Outcome} {acts : List Act} (h : Ending result acts) :
    ∃ last, Act.events acts = [last] ∧
      ((∃ o, result = some o ∧ last = .done o) ∨ (result = none ∧ ∃ m, last = .error m)) := by
  cases h with
  | done o => exact ⟨.done o, rfl, Or.inl ⟨o, rfl, rfl⟩⟩
  | @error p m stops hstops =>
      refine ⟨.error m, ?_, Or.inr ⟨rfl, m, rfl⟩⟩
      rw [Act.events_cons_of_event? rfl, Act.events_event, Act.events_append, events_of_stops hstops]
      rfl

theorem Begun.not_isTerminal {acts : List Act} (h : Begun acts) :
    ∀ e ∈ Act.events acts, e.isTerminal = false := by
  obtain ⟨name, plain, rfl, hplain⟩ := h
  rw [Act.events_cons_of_event? rfl]
  exact Act.not_isTerminal_of_mem_events hplain

/-- Of the events of a request the last one tells the result, and no other ends it. -/
theorem Complete.events_eq {result : Option Outcome} {acts : List Act} (h : Complete result acts) :
    ∃ earlier last, Act.events acts = earlier ++ [last] ∧
      (∀ e ∈ earlier, e.isTerminal = false) ∧
      ((∃ o, result = some o ∧ last = .done o) ∨ (result = none ∧ ∃ m, last = .error m)) := by
  obtain ⟨before, ending, rfl, hbefore, hending⟩ := h
  obtain ⟨last, hlast, hresult⟩ := hending.events_eq
  exact ⟨Act.events before, last, by rw [Act.events_append, hlast], hbefore.not_isTerminal, hresult⟩

namespace Log.Journal

/-- The journal binds and unbinds names with a request. -/
def follow (j : Journal) (acts : List Act) : Journal :=
  acts.foldl (fun j a => match a with
    | .bind name => j.bind name
    | .unbind => j.unbind
    | _ => j) j

theorem follow_append (j : Journal) (as bs : List Act) :
    j.follow (as ++ bs) = (j.follow as).follow bs := List.foldl_append

theorem follow_of_isPlain {as : List Act} (h : ∀ a ∈ as, a.isPlain = true) (j : Journal) :
    j.follow as = j := by
  induction as with
  | nil => rfl
  | cons a as ih =>
      have has := ih fun b hb => h b (List.mem_cons_of_mem a hb)
      cases a with
      | bind name => exact absurd (h (.bind name) List.mem_cons_self) Bool.false_ne_true
      | unbind => exact absurd (h .unbind List.mem_cons_self) Bool.false_ne_true
      | _ => exact has

/-- An ending unbinds what was bound last. -/
theorem follow_of_ending {result : Option Outcome} {acts : List Act} (h : Ending result acts)
    (j : Journal) : j.follow acts = j.unbind := by
  cases h with
  | done o => rfl
  | @error p m stops hstops =>
      have hplain : ∀ a ∈ stops, a.isPlain = true := by
        intro a ha
        obtain ⟨n, rfl⟩ := hstops a ha
        rfl
      have htail : j.follow (.phase p :: .event (.error m) :: (stops ++ [.unbind])) =
          j.follow (stops ++ [.unbind]) := rfl
      rw [htail, follow_append, follow_of_isPlain hplain]
      rfl

/-- The journal is the same before and after a request. -/
theorem follow_of_complete {result : Option Outcome} {acts : List Act} (h : Complete result acts)
    (j : Journal) : j.follow acts = j := by
  obtain ⟨before, ending, rfl, ⟨name, plain, rfl, hplain⟩, hending⟩ := h
  have hbegun : j.follow (.bind name :: plain) = (j.bind name).follow plain := rfl
  rw [follow_append, hbegun, follow_of_isPlain hplain, follow_of_ending hending]
  rfl

end Log.Journal

namespace Scene

private def isStop : Act → Bool
  | .stop _ => true
  | _ => false

/-- When an event is told, nothing but a handle's stop can come after it. -/
theorem exists_acts_tell (s : Scene) (e : Event) :
    ∃ stops, (s.tell e).acts = stops ++ .event e :: s.acts ∧ ∀ a ∈ stops, ∃ n, a = .stop n := by
  unfold tell emit
  simp only
  split
  · exact ⟨[], rfl, fun _ h => absurd h List.not_mem_nil⟩
  · obtain ⟨stops, hacts, -, hstops⟩ := adds_cancel (P := isStop) (fun _ => rfl)
      { s with told := e :: s.told, acts := .event e :: s.acts }
    refine ⟨stops, hacts, fun a ha => ?_⟩
    have hstop := hstops a ha
    cases a with
    | stop n => exact ⟨n, rfl⟩
    | _ => exact absurd hstop Bool.false_ne_true
  · exact ⟨[], rfl, fun _ h => absurd h List.not_mem_nil⟩

/-- Where no cancellation reaches the request, not even that. -/
theorem acts_tell_of_not_admitted {s : Scene} (h : s.admitted = false) (e : Event) :
    (s.tell e).acts = .event e :: s.acts := by
  unfold tell emit
  simp only
  split
  · rfl
  · simp only [cancel, h]
    rfl
  · rfl

end Scene

namespace Run

/-- What a step adds to the acts of a run, oldest first: plain acts, and an ending if it ends it. -/
inductive Progress (r r' : Run) : Prop
  | ongoing {plain : List Act} (hover : r'.isOver = false)
      (acts : r'.scene.acts.reverse = r.scene.acts.reverse ++ plain)
      (hplain : ∀ a ∈ plain, a.isPlain = true)
  | closed {plain ending : List Act} (hover : r'.isOver = true)
      (acts : r'.scene.acts.reverse = r.scene.acts.reverse ++ (plain ++ ending))
      (hplain : ∀ a ∈ plain, a.isPlain = true) (hending : Ending r'.outcome? ending)

/-- Plain acts, oldest first. -/
theorem Quiet.exists_acts {r r' : Run} (h : Quiet r r') :
    ∃ plain, r'.scene.acts.reverse = r.scene.acts.reverse ++ plain ∧
      ∀ a ∈ plain, a.isPlain = true := by
  obtain ⟨new, hacts, -, hnew⟩ := h.scene.adds
  refine ⟨new.reverse, ?_, fun a ha => hnew a (List.mem_reverse.1 ha)⟩
  rw [hacts, List.reverse_append]

theorem progress_of_place {r r' : Run} {job : Job} (h : Quiet r r')
    (hplace : r'.control.place = .on job) : Progress r r' := by
  obtain ⟨plain, hacts, hplain⟩ := h.exists_acts
  refine .ongoing ?_ hacts hplain
  rw [← Bool.not_eq_true, isOver_iff]
  rintro ⟨o, ho⟩
  rw [hplace] at ho
  cases ho

theorem progress_fail {r r' : Run} (h : Quiet r r') (why : Failure) : Progress r (r'.fail why) := by
  obtain ⟨plain, hacts, hplain⟩ := h.exists_acts
  obtain ⟨stops, htell, hstops⟩ := Scene.exists_acts_tell (r'.phase (verdictOn why).1).scene
    (.error (verdictOn why).2)
  have hfail : (r'.fail why).scene.acts =
      .unbind :: (stops ++ .event (.error (verdictOn why).2) :: .phase (verdictOn why).1 ::
        r'.scene.acts) := congrArg (Act.unbind :: ·) htell
  have hending : Ending none (.phase (verdictOn why).1 :: .event (.error (verdictOn why).2) ::
      (stops.reverse ++ [.unbind])) :=
    .error _ _ fun a ha => hstops a (List.mem_reverse.1 ha)
  refine .closed rfl ?_ hplain hending
  rw [hfail]
  simp [hacts]

theorem progress_succeed {r r' : Run} (h : Quiet r r') (o : Outcome) :
    Progress r (r'.succeed o) := by
  unfold succeed
  split
  · exact progress_fail h _
  · obtain ⟨plain, hacts, hplain⟩ := h.exists_acts
    have htell : (((r'.phase .done).dismiss.unbind).tell (.done o)).scene.acts =
        .event (.done o) :: .unbind :: .phase .done :: r'.scene.acts :=
      Scene.acts_tell_of_not_admitted rfl (.done o)
    refine .closed rfl ?_ hplain (.done o)
    show (((r'.phase .done).dismiss.unbind).tell (.done o)).scene.acts.reverse = _
    rw [htell]
    simp [hacts]

/-- **A step of a run that is not over adds plain acts, or plain acts and an ending.** -/
theorem Advance.progress {r r' : Run} (h : Advance r r') (hopen : r.isOver = false) :
    Progress r r' := by
  cases h with
  | stays quiet place =>
      cases hplace : r.control.place with
      | on job => exact progress_of_place quiet (place.trans hplace)
      | ended o =>
          have hover : r.isOver = true := isOver_iff.2 ⟨o, hplace⟩
          rw [hopen] at hover
          cases hover
  | fails quiet _ why => exact progress_fail quiet why
  | takesFirst quiet _ _ => exact progress_succeed quiet _
  | asksAgain quiet _ _ place' => exact progress_of_place quiet place'
  | keepsFirst quiet _ => exact progress_succeed quiet _
  | takesSecond quiet _ _ => exact progress_succeed quiet _
  | goesOn quiet _ _ _ _ place' => exact progress_of_place quiet place'
  | joins quiet _ _ _ _ _ => exact progress_succeed quiet _

theorem Opening.progress {r r' : Run} (h : Opening r r') : Progress r r' := by
  cases h with
  | fails quiet why => exact progress_fail quiet why
  | whole quiet place => exact progress_of_place quiet place
  | parts quiet _ place => exact progress_of_place quiet place

end Run
end Refinery
