import Refinery.Proofs.Session.Repair
import Refinery.Proofs.Session.Retry

/-!
How often a text that is one chunk is asked for. The first ladder asks for it plainly. If its output
changes nothing although something was found in the text, a second ladder asks with insistence, one
level higher, and there is no third. The outcome is that of the second output if it changes the text,
and that of the first one in every other case. All calls of the engine are those of the two ladders,
and each ladder makes one for its first rung and one for each retry.
-/

namespace Refinery

open Scene

/-- Whether a retry can still come. -/
def Course.goesOn : Course → Bool
  | .running _ => true
  | .closing (.ok _) => true
  | _ => false

namespace Ladder

/-- How many retries are left on the rung. -/
def spare (l : Ladder) : Nat :=
  match l.errand with
  | some e => e.spare l.rung
  | none => 0

/-- How many calls a ladder can still make: the one that was entered, and one for each retry. -/
def callsLeft (l : Ladder) : Nat :=
  l.entered?.toList.length + if l.course.goesOn then l.spare else 0

variable {settings : Settings} {l l' : Ladder} {s s' : Scene} {x : Signal}

theorem callsLeft_entered (e : Errand) (rung : Rung) (options : SamplingOptions) :
    (Transcript.entered e rung options).callsLeft = 1 + e.spare rung := rfl

theorem callsLeft_finish (l : Ladder) (r : Except Failure Text) : (l.finish r).callsLeft = 0 := rfl

theorem callsLeft_running (l : Ladder) (g : Generation) :
    callsLeft { l with course := .running g } =
      (entered? { l with course := .running g }).toList.length + l.spare := rfl

theorem callsLeft_of_running {g : Generation} (h : l.course = .running g) :
    l.callsLeft = l.entered?.toList.length + l.spare := by
  rw [callsLeft, h]
  rfl

/-- **A step uses up the calls that it makes.** -/
theorem Climb.called_le (h : Climb settings l s x l' s') :
    (Act.called s'.acts).length + l'.callsLeft ≤ (Act.called s.acts).length + l.callsLeft := by
  cases h with
  | @calls g hcourse hreader =>
      have hcalled : Act.called (g.start s).2.acts = (g.prompt, g.options) :: Act.called s.acts := rfl
      have hnone : entered? { l with course := .running (g.start s).1 } = none := rfl
      rw [callsLeft_running, callsLeft_of_running hcourse, hnone,
        entered?_of_running hcourse hreader, hcalled]
      simp only [List.length_cons, Option.toList_none, Option.toList_some, List.length_nil]
      omega
  | @hears g g' _ es hcourse h =>
      have hcalled : Act.called ((g.hearing s x).tells es).acts = Act.called s.acts := by simp
      rw [callsLeft_running, callsLeft_of_running hcourse, hcalled]
      rcases entered?_of_heard hcourse h with hnone | hsame
      · rw [hnone]
        simp only [Option.toList_none, List.length_nil]
        omega
      · rw [hsame]
  | @decides g result hcourse hresult =>
      have hleft : callsLeft { l with course := .closing result } ≤ l.spare := by
        cases result with
        | error why => exact Nat.zero_le _
        | ok o => exact Nat.le_of_eq (Nat.zero_add _)
      rw [callsLeft_of_running hcourse, called_release]
      omega
  | ends _ result' => exact Nat.le_add_right _ _
  | @retries output e rung hcourse herrand hnext =>
      have hleft : l.callsLeft = e.spare l.rung := by
        unfold callsLeft entered? spare
        rw [hcourse, herrand]
        exact Nat.zero_add _
      rw [called_tell, hleft, ← Errand.spare_of_next hnext]
      unfold enter
      split
      · rw [callsLeft_finish]
        omega
      · have hentered := callsLeft_running { l with rung := rung }
          { prompt := rung.prompt, options := l.options }
        have hspare : spare { l with rung := rung } = e.spare rung := by rw [spare, herrand]
        rw [hentered, hspare]
        exact Nat.le_of_eq (by rw [Nat.add_comm (e.spare rung)]; rfl)
  | cancels _ => rw [called_cancel]
  | waits _ => exact Nat.le_refl _

end Ladder

/-! ### The ladders of a run -/

/-- The level that a ladder is on, and whether it insists. -/
def Ladder.manner (l : Ladder) : Int × Bool := (l.rung.level, l.errand.any Errand.insist)

def Control.ladder? : Control → Option Ladder
  | .asking _ l => some l
  | _ => none

namespace Run

/-- What is read off the steps of a run in the course of some signals. -/
def gathered {α : Type} (read : Run → Signal → List α) (r : Run) : List Signal → List α
  | [] => []
  | x :: xs => read r x ++ (r.step x).gathered read xs

/-- How the ladder asks that is entered between two places of a run. -/
def enters (r r' : Run) : List (Int × Bool) :=
  match r.control.ladder?, r'.control.ladder? with
  | none, some l => [l.manner]
  | _, _ => []

/-- How the ladders ask that are entered in the course of some signals. -/
def ladders (r : Run) (xs : List Signal) : List (Int × Bool) :=
  r.gathered (fun r x => r.enters (r.step x)) xs

/-- The result of a ladder that a run goes on with at its turn. -/
def given (r : Run) (x : Signal) : List (Except Failure Text) :=
  match r.control, x with
  | .idling _ result, .resume => [result]
  | _, _ => []

/-- The results of the ladders in the course of some signals. -/
def results (r : Run) (xs : List Signal) : List (Except Failure Text) := r.gathered given xs

variable {task r r' : Run} {job : Job} {l : Ladder} {x : Signal} {output : Text}

theorem gathered_concat {α : Type} (read : Run → Signal → List α) (r : Run) (xs : List Signal)
    (x : Signal) : r.gathered read (xs ++ [x]) = r.gathered read xs ++ read (r.after xs) x := by
  induction xs generalizing r with
  | nil => exact List.append_nil _
  | cons y ys ih =>
      show read r y ++ (r.step y).gathered read (ys ++ [x]) = _
      rw [ih, ← List.append_assoc]
      rfl

theorem enters_of_asking (hcontrol : r.control = .asking job l) (r' : Run) : r.enters r' = [] := by
  rw [enters, hcontrol]
  rfl

theorem enters_of_not_asking (h : r'.control.ladder? = none) : r.enters r' = [] := by
  rw [enters, h]
  cases r.control.ladder? <;> rfl

theorem given_eq_nil (h : ∀ job result, r.control = .idling job result → x ≠ .resume) :
    r.given x = [] := by
  unfold given
  split
  · next hcontrol => exact absurd rfl (h _ _ hcontrol)
  · rfl

/-- The output changes nothing, though something was found in the text. -/
def AsksAgain (r : Run) (output : Text) : Prop :=
  (r.judge output).noChange = true ∧ r.report.findings ≠ []

/-- The outcome after a second ladder, if the run does not fail with it. -/
def second? (r : Run) (first : Outcome) : Except Failure Text → Option Outcome
  | .ok output =>
    some (if (r.judge output).noChange then first
      else { r.judge output with warning := some retryWarning })
  | .error (.emptyOutput _) => some first
  | .error _ => none

/-- How many calls a ladder makes at most that begins at a level. -/
def tries (r : Run) (level : Int) : Nat :=
  1 + ((Prompt.maxLevel - level).toNat +
    if r.request.fast then 0 else r.settings.maxTruncationRetries.toNat)

theorem SameTask.asksAgain_iff (h : SameTask task r) :
    r.AsksAgain output ↔ task.AsksAgain output := by
  rw [AsksAgain, AsksAgain, h.judge, h.2.2]

theorem SameTask.second?_eq (h : SameTask task r) (first : Outcome)
    (result : Except Failure Text) : r.second? first result = task.second? first result := by
  unfold second?
  rw [show r.judge = task.judge from funext h.judge]

theorem SameTask.errandOf_eq (h : SameTask task r) (code : Text) (report : Report) (insist : Bool)
    (context : Option Text) :
    r.errandOf code report insist context = task.errandOf code report insist context := by
  rw [Run.errandOf, Run.errandOf, h.1, h.2.1]

theorem SameTask.tries_eq (h : SameTask task r) (level : Int) : r.tries level = task.tries level := by
  rw [tries, tries, h.1, h.2.1]

theorem callsLeft_first (r : Run) (code : Text) (report : Report) (insist : Bool)
    (context : Option Text) (level : Int) (options : SamplingOptions) :
    Ladder.callsLeft (Transcript.entered (r.errandOf code report insist context)
      ((r.errandOf code report insist context).first level) options) = r.tries level := by
  rw [Ladder.callsLeft_entered, Errand.spare_first]
  rfl

/-- What the first ladder's output leads to. -/
inductive Judges (r : Run) (output : Text) : Run → Prop
  | stops {r₁ : Run} : Judges r output (r₁.fail Generation.cancelledFailure)
  | takes {r₁ : Run} (hagain : ¬ r.AsksAgain output)
      (hcalled : Act.called r₁.scene.acts = Act.called r.scene.acts) :
      Judges r output (r₁.succeed (r.judge output))
  | asks {r₁ : Run} (hagain : r.AsksAgain output)
      (hcalled : Act.called r₁.scene.acts = Act.called r.scene.acts) :
      Judges r output (r₁.enter (.whole (some (r.judge output)))
        (r.errandOf r.request.code r.report true none) 1 (r.optionsOf r.request.code))

theorem judges_afterFirst (r : Run) (output : Text) :
    Judges r output ((r.tell .streamIdle).afterFirst output) := by
  obtain ⟨r₁, hr₁, htold⟩ : ∃ r₁,
      r₁ = ((r.tell .streamIdle).phase .validating).tell (.stage .finalizing) ∧
        Tells [.event (.stage .finalizing), .phase .validating, .event .streamIdle] r r₁ :=
    ⟨_, rfl, (((Tells.refl r).tell rfl).phase _).tell rfl⟩
  have hagain : ((r.judge output).noChange && !r.report.findings.isEmpty) = true ↔
      r.AsksAgain output := by
    rw [Bool.and_eq_true, Bool.not_eq_true', List.isEmpty_eq_false_iff]
    rfl
  have hsame := htold.quiet.sameTask
  unfold afterFirst
  simp only [← hr₁, hsame.judge, hsame.2.2]
  split
  · next hcond =>
      split
      · exact .stops
      · obtain ⟨r₂, hr₂, hretrying⟩ : ∃ r₂,
            r₂ = (((r₁.phase .retrying).tell (.stage .optimizing)).tell
              (.substage .retrying)).tell .retryClear ∧
            Tells [.event .retryClear, .event (.substage .retrying), .event (.stage .optimizing),
              .phase .retrying, .event (.stage .finalizing), .phase .validating,
              .event .streamIdle] r r₂ :=
          ⟨_, rfl, (((htold.phase _).tell rfl).tell rfl).tell rfl⟩
        obtain ⟨r₃, hasked, hask⟩ := exists_ask r₂ (.whole (some (r.judge output)))
          r₂.request.code r₂.report 1 true none
        have htask := hretrying.quiet.sameTask
        rw [← hr₂, hask, htask.2.1, htask.2.2, htask.errandOf_eq, htask.optionsOf]
        exact .asks (hagain.1 hcond) (hretrying.trans hasked).called
  · next hcond => exact .takes (fun h => hcond (hagain.2 h)) htold.called

/-- After the second ladder a run ends: with an outcome, or it fails. -/
theorem afterLadder_second (r : Run) (first : Outcome) (result : Except Failure Text) :
    ∃ r₁ : Run, Act.called r₁.scene.acts = Act.called r.scene.acts ∧
      ((∃ o, r.second? first result = some o ∧
          r.afterLadder (.whole (some first)) result = r₁.succeed o) ∨
        ∃ why, r.afterLadder (.whole (some first)) result = r₁.fail why) := by
  obtain ⟨r₁, hr₁, hcalled⟩ : ∃ r₁,
      r₁ = ((r.tell .streamIdle).phase .validating).tell (.stage .finalizing) ∧
        Act.called r₁.scene.acts = Act.called r.scene.acts :=
    ⟨_, rfl, ((((Tells.refl r).tell rfl).phase _).tell rfl).called⟩
  cases result with
  | ok output =>
      refine ⟨r₁, hcalled, Or.inl ⟨_, rfl, ?_⟩⟩
      rw [hr₁]
      rfl
  | error why =>
      have hfail : (∀ m, why ≠ .emptyOutput m) →
          r.afterLadder (.whole (some first)) (.error why) = (r.tell .streamIdle).fail why := by
        intro hother
        cases why with
        | emptyOutput m => exact absurd rfl (hother m)
        | _ => rfl
      cases why with
      | emptyOutput m =>
          refine ⟨r₁, hcalled, Or.inl ⟨first, rfl, ?_⟩⟩
          rw [hr₁]
          rfl
      | _ => exact ⟨r.tell .streamIdle, called_tell _ _, Or.inr ⟨_, hfail nofun⟩⟩

/-- So much was asked and came back, with so many calls, of a text that is one chunk. -/
inductive Follows (task : Run) (called : Nat) :
    List (Int × Bool) → List (Except Failure Text) → Control → Prop
  | asksFirst {l : Ladder} (hcalls : called + l.callsLeft ≤ task.tries 0) :
      Follows task called [(0, false)] [] (.asking (.whole none) l)
  | hasFirst {result : Except Failure Text} (hcalls : called ≤ task.tries 0) :
      Follows task called [(0, false)] [] (.idling (.whole none) result)
  | asksSecond {first : Text} {l : Ladder} (hagain : task.AsksAgain first)
      (hcalls : called + l.callsLeft ≤ task.tries 0 + task.tries 1) :
      Follows task called [(0, false), (1, true)] [.ok first]
        (.asking (.whole (some (task.judge first))) l)
  | hasSecond {first : Text} {result : Except Failure Text} (hagain : task.AsksAgain first)
      (hcalls : called ≤ task.tries 0 + task.tries 1) :
      Follows task called [(0, false), (1, true)] [.ok first]
        (.idling (.whole (some (task.judge first))) result)
  | takesFirst {first : Text} (hagain : ¬ task.AsksAgain first) (hcalls : called ≤ task.tries 0) :
      Follows task called [(0, false)] [.ok first] (.ended (some (task.judge first)))
  | takesSecond {first : Text} {result : Except Failure Text} {o : Outcome}
      (hagain : task.AsksAgain first) (ho : task.second? (task.judge first) result = some o)
      (hcalls : called ≤ task.tries 0 + task.tries 1) :
      Follows task called [(0, false), (1, true)] [.ok first, result] (.ended (some o))
  | fails (ladders : List (Int × Bool)) (results : List (Except Failure Text)) :
      Follows task called ladders results (.ended none)

variable {ladders : List (Int × Bool)} {results : List (Except Failure Text)}

/-- A turn is taken after a ladder, or in front of a chunk. -/
theorem Turn.control (h : Turn r r') :
    (∃ job result, r.control = .idling job result) ∨ ∃ p, r.control = .pausing p := by
  cases h with
  | breaks hcontrol _ => exact Or.inl ⟨_, _, hcontrol⟩
  | stops hcontrol _ => exact Or.inl ⟨_, _, hcontrol⟩
  | takesFirst hcontrol _ => exact Or.inl ⟨_, _, hcontrol⟩
  | asksAgain hcontrol _ => exact Or.inl ⟨_, _, hcontrol⟩
  | takesSecond hcontrol _ _ _ => exact Or.inl ⟨_, _, hcontrol⟩
  | pauses hcontrol _ _ => exact Or.inl ⟨_, _, hcontrol⟩
  | joins hcontrol _ _ _ _ => exact Or.inl ⟨_, _, hcontrol⟩
  | turnsBack hcontrol _ => exact Or.inr ⟨_, hcontrol⟩
  | asksPart hcontrol _ => exact Or.inr ⟨_, hcontrol⟩

/-- A run that asks does so with calls of its ladder, until this one has a result. -/
theorem step_of_asking (hcontrol : r.control = .asking job l) (hr : r.scene.Unfailing) (x : Signal) :
    (∃ l', (r.step x).control = .asking job l' ∧
      (Act.called (r.step x).scene.acts).length + l'.callsLeft ≤
        (Act.called r.scene.acts).length + l.callsLeft) ∨
    ∃ result, (r.step x).control = .idling job result ∧
      (Act.called (r.step x).scene.acts).length ≤
        (Act.called r.scene.acts).length + l.callsLeft := by
  have htakes := takes_step hr x
  generalize r.step x = r' at htakes ⊢
  cases htakes with
  | cancels =>
      rw [called_cancel]
      exact Or.inl ⟨l, hcontrol, Nat.le_refl _⟩
  | @ticks _ _ i s _ hs _ =>
      have hcalled : Act.called (s.tell (.substage (.hint i))).acts = Act.called r.scene.acts := by
        rw [called_tell, hs]
      rw [hcalled]
      exact Or.inl ⟨l, hcontrol, Nat.le_refl _⟩
  | @climbs job' l₁ l' s x hcontrol' _ _ hclimb _ =>
      rw [hcontrol] at hcontrol'
      cases hcontrol'
      have hcalled := hclimb.called_le
      unfold withLadder
      cases hresult : l'.result? with
      | none => exact Or.inl ⟨l', rfl, hcalled⟩
      | some result => exact Or.inr ⟨result, rfl, (Nat.le_add_right _ _).trans hcalled⟩
  | turns hturn =>
      rcases hturn.control with ⟨_, _, h⟩ | ⟨_, h⟩
      · cases hcontrol.symm.trans h
      · cases hcontrol.symm.trans h
  | waits _ => exact Or.inl ⟨l, hcontrol, Nat.le_refl _⟩

/-- A run that does not ask stays where it is unless it is its turn. -/
theorem step_of_still (hr : r.scene.Unfailing) (hasking : r.control.ladder? = none)
    (hturn : x = .resume → ∃ o, r.control = .ended o) :
    (r.step x).control = r.control ∧
      Act.called (r.step x).scene.acts = Act.called r.scene.acts := by
  have htakes := takes_step hr x
  generalize r.step x = r' at htakes ⊢
  cases htakes with
  | cancels => exact ⟨rfl, called_cancel _⟩
  | ticks hcontrol _ _ =>
      rw [hcontrol] at hasking
      cases hasking
  | climbs hcontrol _ _ _ _ =>
      rw [hcontrol] at hasking
      cases hasking
  | turns h =>
      obtain ⟨o, hended⟩ := hturn rfl
      rcases h.control with ⟨_, _, h⟩ | ⟨_, h⟩
      · cases hended.symm.trans h
      · cases hended.symm.trans h
  | waits _ => exact ⟨rfl, rfl⟩

theorem follows_still (h : Follows task (Act.called r.scene.acts).length ladders results r.control)
    (hr : r.scene.Unfailing) (hasking : r.control.ladder? = none)
    (hturn : x = .resume → ∃ o, r.control = .ended o) :
    Follows task (Act.called (r.step x).scene.acts).length (ladders ++ r.enters (r.step x))
      (results ++ r.given x) (r.step x).control := by
  obtain ⟨hcontrol, hcalled⟩ := step_of_still hr hasking hturn
  have henters : r.enters (r.step x) = [] := enters_of_not_asking (by rw [hcontrol, hasking])
  have hgiven : r.given x = [] := by
    refine given_eq_nil fun job result hidling hx => ?_
    obtain ⟨o, hended⟩ := hturn hx
    cases hended.symm.trans hidling
  rw [henters, hgiven, List.append_nil, List.append_nil, hcalled, hcontrol]
  exact h

/-- A ladder that is entered is a ladder of its level, with all its calls left. -/
theorem enter_going (job : Job) (code : Text) (report : Report) (insist : Bool) (level : Int)
    (hidle : r.control.ladder? = none) {r₁ : Run} (hgoing : r₁.scene.cancelled = false) :
    ∃ l, (r₁.enter job (r.errandOf code report insist none) level (r.optionsOf code)).control =
        .asking job l ∧ l.callsLeft = r.tries level ∧
      r.enters (r₁.enter job (r.errandOf code report insist none) level (r.optionsOf code)) =
        [(level, insist)] := by
  rw [enter_of_going _ _ _ _ hgoing]
  refine ⟨_, rfl, callsLeft_first r code report insist none level (r.optionsOf code), ?_⟩
  rw [enters, hidle]
  rfl

/-- The turn after the first ladder. -/
theorem follows_first {output : Text} (hcontrol : r.control = .idling (.whole none) (.ok output))
    (hsame : SameTask task r) (hcalls : (Act.called r.scene.acts).length ≤ task.tries 0)
    (hjudges : Judges r output r') (hgoing : r'.scene.cancelled = false) :
    Follows task (Act.called r'.scene.acts).length ([(0, false)] ++ r.enters r') [.ok output]
      r'.control := by
  have hidle : r.control.ladder? = none := by rw [hcontrol]; rfl
  cases hjudges with
  | stops => exact .fails _ _
  | @takes r₁ hagain hcalled =>
      by_cases hcancelled : r₁.scene.cancelled = true
      · rw [succeed_of_cancelled hcancelled]
        exact .fails _ _
      · have hended := control_succeed (by simpa using hcancelled) (r.judge output)
        rw [called_succeed, hcalled, hended, enters_of_not_asking (by rw [hended]; rfl),
          hsame.judge]
        exact .takesFirst (fun h => hagain (hsame.asksAgain_iff.2 h)) hcalls
  | @asks r₁ hagain hcalled =>
      rw [scene_enter] at hgoing ⊢
      obtain ⟨l, hasking, hleft, henters⟩ := enter_going (.whole (some (r.judge output)))
        r.request.code r.report true 1 hidle hgoing
      rw [hasking, henters, hcalled, hsame.judge]
      refine .asksSecond (hsame.asksAgain_iff.1 hagain) ?_
      rw [hleft, hsame.tries_eq]
      exact Nat.add_le_add_right hcalls _

/-- The turn after the second ladder. -/
theorem follows_second {first : Text} {result : Except Failure Text}
    (hsame : SameTask task r) (hagain : task.AsksAgain first)
    (hcalls : (Act.called r.scene.acts).length ≤ task.tries 0 + task.tries 1)
    (hstep : r.afterLadder (.whole (some (task.judge first))) result = r') :
    Follows task (Act.called r'.scene.acts).length ([(0, false), (1, true)] ++ r.enters r')
      [.ok first, result] r'.control := by
  obtain ⟨r₁, hcalled, ⟨o, ho, hafter⟩ | ⟨why, hafter⟩⟩ :=
    afterLadder_second r (task.judge first) result
  · rw [← hstep, hafter]
    by_cases hcancelled : r₁.scene.cancelled = true
    · rw [succeed_of_cancelled hcancelled]
      exact .fails _ _
    · have hended := control_succeed (by simpa using hcancelled) o
      rw [called_succeed, hcalled, hended, enters_of_not_asking (by rw [hended]; rfl)]
      exact .takesSecond hagain (hsame.second?_eq _ _ ▸ ho) hcalls
  · rw [← hstep, hafter]
    exact .fails _ _

/-- **One step preserves it.** -/
theorem follows_step (h : Follows task (Act.called r.scene.acts).length ladders results r.control)
    (hsame : SameTask task r) (hr : r.scene.Unfailing) (x : Signal)
    (hgoing : (r.step x).scene.cancelled = false) :
    Follows task (Act.called (r.step x).scene.acts).length (ladders ++ r.enters (r.step x))
      (results ++ r.given x) (r.step x).control := by
  have hfollows := h
  generalize hcontrol : r.control = c at h
  have hstill := follows_still (x := x) hfollows hr
  cases h with
  | asksFirst hcalls =>
      rw [enters_of_asking hcontrol, given_eq_nil fun _ _ h => by cases hcontrol.symm.trans h]
      rcases step_of_asking hcontrol hr x with ⟨l', hcontrol', hcalled⟩ | ⟨result, hcontrol', hcalled⟩
      · rw [hcontrol']
        exact .asksFirst (hcalled.trans hcalls)
      · rw [hcontrol']
        exact .hasFirst (hcalled.trans hcalls)
  | asksSecond hagain hcalls =>
      rw [enters_of_asking hcontrol, given_eq_nil fun _ _ h => by cases hcontrol.symm.trans h]
      rcases step_of_asking hcontrol hr x with ⟨l', hcontrol', hcalled⟩ | ⟨result, hcontrol', hcalled⟩
      · rw [hcontrol']
        exact .asksSecond hagain (hcalled.trans hcalls)
      · rw [hcontrol']
        exact .hasSecond hagain (hcalled.trans hcalls)
  | @hasFirst result hcalls =>
      by_cases hx : x = .resume
      · subst hx
        have hstep : r.step .resume = r.afterLadder (.whole none) result := by
          simp only [step, hcontrol]
        have hgiven : r.given .resume = [result] := by simp only [given, hcontrol]
        rw [hstep] at hgoing ⊢
        rw [hgiven]
        cases result with
        | error why => exact .fails _ _
        | ok output => exact follows_first hcontrol hsame hcalls (judges_afterFirst r output) hgoing
      · exact hstill (by rw [hcontrol]; rfl) fun h => absurd h hx
  | @hasSecond first result hagain hcalls =>
      by_cases hx : x = .resume
      · subst hx
        have hstep : r.step .resume = r.afterLadder (.whole (some (task.judge first))) result := by
          simp only [step, hcontrol]
        have hgiven : r.given .resume = [result] := by simp only [given, hcontrol]
        rw [hgiven]
        exact follows_second hsame hagain hcalls hstep.symm
      · exact hstill (by rw [hcontrol]; rfl) fun h => absurd h hx
  | takesFirst _ _ => exact hstill (by rw [hcontrol]; rfl) fun _ => ⟨_, hcontrol⟩
  | takesSecond _ _ _ => exact hstill (by rw [hcontrol]; rfl) fun _ => ⟨_, hcontrol⟩
  | fails _ _ => exact hstill (by rw [hcontrol]; rfl) fun _ => ⟨_, hcontrol⟩

/-! ### Whole runs -/

theorem follows_begin (settings : Settings) (name : Text) (request : Request) (host : Host)
    (hfew : (Chunk.split request.code settings.chunkSize).length < 2)
    (hgoing : (begin settings name request host).scene.cancelled = false) :
    Follows (opened settings name request host)
      (Act.called (begin settings name request host).scene.acts).length
      ((opened settings name request host).enters (begin settings name request host)) []
      (begin settings name request host).control := by
  have hbegins := begins_begin settings name request host
  generalize begin settings name request host = start at hbegins hgoing ⊢
  cases hbegins with
  | turnsBack _ _ => exact .fails _ _
  | asksPart hchunks _ _ =>
      have hlength := congrArg List.length hchunks
      rw [Chunk.length_ofTexts] at hlength
      exact absurd (hlength ▸ hfew) (by simp)
  | @asksWhole r₁ _ told =>
      rw [scene_enter] at hgoing ⊢
      obtain ⟨l, hasking, hleft, henters⟩ := enter_going (r := opened settings name request host)
        (.whole none) request.code (opened settings name request host).report false 0 rfl hgoing
      have hcalled : Act.called r₁.scene.acts = [] := told.called
      rw [show (opened settings name request host).request = request from rfl, hasking, henters,
        hcalled]
      refine .asksFirst ?_
      rw [hleft]
      exact Nat.le_of_eq (Nat.zero_add _)

theorem follows_after_begin (settings : Settings) (name : Text) (request : Request) (host : Host)
    (hfew : (Chunk.split request.code settings.chunkSize).length < 2) (xs : List Signal)
    (hgoing : ((begin settings name request host).after xs).scene.cancelled = false) :
    let start := begin settings name request host
    Follows (opened settings name request host) (Act.called (start.after xs).scene.acts).length
      ((opened settings name request host).enters start ++ start.ladders xs) (start.results xs)
      (start.after xs).control := by
  intro start
  induction xs using List.reverseRecOn with
  | nil =>
      show Follows _ _ (_ ++ []) [] _
      rw [List.append_nil]
      exact follows_begin settings name request host hfew hgoing
  | append_singleton xs x ih =>
      have hheedful := heedful_after_begin settings name request host xs
      have hsame := sameTask_after_begin settings name request host xs
      rw [after_concat] at hgoing
      have hstep := follows_step (ih (going_of_step hgoing)) hsame hheedful.unfailing x hgoing
      rw [after_concat, ladders, results, gathered_concat, gathered_concat, ← List.append_assoc]
      exact hstep

/-- What a second ladder ends with: the outcome of its output if that changes the text, and otherwise
the first one. -/
theorem second?_cases {first o : Outcome} {result : Except Failure Text}
    (h : r.second? first result = some o) :
    (∃ m, result = .error (.emptyOutput m) ∧ o = first) ∨
    ∃ second, result = .ok second ∧
      (((r.judge second).noChange = true ∧ o = first) ∨
        ((r.judge second).noChange = false ∧
          o = { r.judge second with warning := some retryWarning })) := by
  unfold second? at h
  split at h
  · next second =>
      refine Or.inr ⟨second, rfl, ?_⟩
      split at h
      · next hsame => exact Or.inl ⟨hsame, (Option.some.inj h).symm⟩
      · next hchange => exact Or.inr ⟨Bool.eq_false_iff.2 hchange, (Option.some.inj h).symm⟩
  · next m => exact Or.inl ⟨m, rfl, (Option.some.inj h).symm⟩
  · cases h

theorem tries_add_tries (r : Run) : r.tries 0 + r.tries 1 =
    5 + 2 * if r.request.fast then 0 else r.settings.maxTruncationRetries.toNat := by
  have hfirst : (Prompt.maxLevel - 0).toNat = 2 := by decide
  have hsecond : (Prompt.maxLevel - 1).toNat = 1 := by decide
  unfold tries
  rw [hfirst, hsecond]
  omega

/-- What is known of a run over a text of one chunk where it has come to its outcome. -/
theorem Follows.outcome {called : Nat} {o : Outcome}
    (h : Follows task called ladders results (.ended (some o))) :
    (∃ first later, results = .ok first :: later ∧
      (task.AsksAgain first → ladders = [(0, false), (1, true)] ∧
        ((∃ m, later = [.error (.emptyOutput m)]) ∨ ∃ second, later = [.ok second])) ∧
      (¬ task.AsksAgain first → ladders = [(0, false)] ∧ later = []) ∧
      (∀ second, later = [.ok second] → (task.judge second).noChange = false →
        o = { task.judge second with warning := some retryWarning }) ∧
      ((∀ second, later = [.ok second] → (task.judge second).noChange = true) →
        o = task.judge first)) ∧
    (o.parsed = false → o.code = task.request.code ∧ o.noChange = true) ∧
    called ≤ task.tries 0 + task.tries 1 := by
  cases h with
  | @takesFirst first hagain hcalls =>
      exact ⟨⟨first, [], rfl, fun h => absurd h hagain, fun _ => ⟨rfl, rfl⟩, nofun, fun _ => rfl⟩,
        Verdict.kept_outcome, hcalls.trans (Nat.le_add_right _ _)⟩
  | @takesSecond first result _ hagain ho hcalls =>
      rcases second?_cases ho with ⟨m, rfl, rfl⟩ | ⟨second, rfl, ⟨hsame, rfl⟩ | ⟨hchange, rfl⟩⟩
      · exact ⟨⟨first, _, rfl, fun _ => ⟨rfl, Or.inl ⟨m, rfl⟩⟩, fun h => absurd hagain h, nofun,
          fun _ => rfl⟩, Verdict.kept_outcome, hcalls⟩
      · refine ⟨⟨first, _, rfl, fun _ => ⟨rfl, Or.inr ⟨second, rfl⟩⟩, fun h => absurd hagain h, ?_,
          fun _ => rfl⟩, Verdict.kept_outcome, hcalls⟩
        intro second' hsecond hchange
        cases hsecond
        exact absurd (hsame.symm.trans hchange) Bool.noConfusion
      · refine ⟨⟨first, _, rfl, fun _ => ⟨rfl, Or.inr ⟨second, rfl⟩⟩, fun h => absurd hagain h, ?_,
          ?_⟩, ?_, hcalls⟩
        · intro second' hsecond _
          cases hsecond
          rfl
        · intro hall
          exact absurd ((hall second rfl).symm.trans hchange) Bool.noConfusion
        · intro hparsed
          exact absurd ((Verdict.parsed_of_noChange hchange).symm.trans hparsed) Bool.noConfusion

/-- **What a run over a text of one chunk delivers.** `ladders` tells at which level and with what
insistence its ladders ask, and `results` what they come to. There is a second ladder exactly where
the first output changes nothing although something was found; its output counts if it changes the
text. An outcome that was not accepted keeps the text, and the calls of the engine are bounded. -/
theorem outcome_of_ladders {settings : Settings} {name : Text} {request : Request} {host : Host}
    {xs : List Signal} {o : Outcome}
    (hfew : (Chunk.split request.code settings.chunkSize).length < 2)
    (h : ((begin settings name request host).after xs).outcome? = some o) :
    let task := opened settings name request host
    let start := begin settings name request host
    let ladders := task.enters start ++ start.ladders xs
    let retries := settings.maxTruncationRetries.toNat
    let calls := (Act.called (start.after xs).scene.acts).length
    (∃ first later, start.results xs = .ok first :: later ∧
      (task.AsksAgain first → ladders = [(0, false), (1, true)] ∧
        ((∃ m, later = [.error (.emptyOutput m)]) ∨ ∃ second, later = [.ok second])) ∧
      (¬ task.AsksAgain first → ladders = [(0, false)] ∧ later = []) ∧
      (∀ second, later = [.ok second] → (task.judge second).noChange = false →
        o = { task.judge second with warning := some retryWarning }) ∧
      ((∀ second, later = [.ok second] → (task.judge second).noChange = true) →
        o = task.judge first)) ∧
    (o.parsed = false → o.code = request.code ∧ o.noChange = true) ∧
    calls ≤ (3 + retries) + (2 + retries) ∧
    (request.fast = true → calls ≤ 5) := by
  intro task start ladders retries calls
  have hgoing := (heedful_after_begin settings name request host xs).going o h
  have hfollows := follows_after_begin settings name request host hfew xs hgoing
  simp only [control_of_outcome? h] at hfollows
  obtain ⟨houtcome, hkept, hcalls⟩ := hfollows.outcome
  rw [tries_add_tries] at hcalls
  refine ⟨houtcome, hkept, hcalls.trans ?_, fun hfast => hcalls.trans ?_⟩
  · show 5 + 2 * (if request.fast then 0 else retries) ≤ _
    split <;> omega
  · show 5 + 2 * (if request.fast then 0 else retries) ≤ 5
    rw [if_pos hfast]

/-- A text comes back unchanged though it negates twice; the second ladder gets blanks first, and then
a text that counts. -/
theorem outcome_of_two_ladders :
    let whole := "counted = !!items"
    let revised := "counted = items"
    let request : Request := { code := whole.toList, code_filled := by decide }
    let call (output : String) : List Signal :=
      [.resume, .opened, .token (.text output.toList), .ended, .settled, .resume, .resume]
    let signals := call ("```\n" ++ whole ++ "\n```") ++ .resume :: call "  " ++
      call ("```\n" ++ revised ++ "\n```") ++ [.resume]
    let task := opened {} [] request fun _ => .pass
    let start := begin {} [] request fun _ => .pass
    (Chunk.split request.code ({} : Settings).chunkSize).length < 2 ∧
    ∃ o, (start.after signals).outcome? = some o ∧ o.code = revised.toList ∧
      o.warning = some retryWarning ∧
      (∃ first, task.AsksAgain first ∧
        task.enters start ++ start.ladders signals = [(0, false), (1, true)]) ∧
      (Act.called (start.after signals).scene.acts).length = 3 ∧
      (Act.called (start.after signals).scene.acts).length ≤
        (3 + ({} : Settings).maxTruncationRetries.toNat) +
          (2 + ({} : Settings).maxTruncationRetries.toNat) := by
  intro whole revised request call signals task start
  have hfew : (Chunk.split request.code ({} : Settings).chunkSize).length < 2 := by decide +kernel
  have hdone : (start.after signals).outcome?.map (fun o => (o.code, o.warning)) =
      some (revised.toList, some retryWarning) := by decide +kernel
  have htwo : (start.results signals).length = 2 := by decide +kernel
  have hthree : (Act.called (start.after signals).scene.acts).length = 3 := by decide +kernel
  obtain ⟨o, ho, heq⟩ := Option.map_eq_some_iff.1 hdone
  obtain ⟨hcode, hwarning⟩ := Prod.mk.inj heq
  obtain ⟨⟨first, later, hresults, hagain, hno, -⟩, -, hcalls, -⟩ := outcome_of_ladders hfew ho
  have hasks : task.AsksAgain first := by
    by_contra hnot
    rw [hresults, (hno hnot).2] at htwo
    exact absurd htwo (by simp)
  exact ⟨hfew, o, ho, hcode, hwarning, ⟨first, hasks, (hagain hasks).1⟩, hthree, hcalls⟩

end Run
end Refinery
