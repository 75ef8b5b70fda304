import Refinery.Proofs.Session.Phase

/-!
How a request ends that is cancelled. A failure that was raised before is on its way out of the
ladder and of the run, and nothing on this way looks at the cancellation: the request ends with that
failure. Where none was raised it ends as cancelled. In both cases it is over after four more turns
at the latest.
-/

namespace Refinery

/-- Whether a ladder's failure ends the run. If the second ladder finds no output, the outcome of the
first one is kept. -/
def Job.minds : Job → Failure → Bool
  | .whole (some _), .emptyOutput _ => false
  | _, _ => true

/-- The failure that a ladder is about to end with. -/
def Ladder.raised? (l : Ladder) : Option Failure :=
  match l.course with
  | .running _ => none
  | .closing (.error why) => some why
  | .closing (.ok output) => match l.errand with
    | none => none
    | some errand => match errand.next l.rung output with
      | .giveUp => some (.emptyOutput Failure.emptyText)
      | _ => none
  | .ended (.error why) => some why
  | .ended (.ok _) => none

/-- The failure that is on its way out of a run. -/
def Control.raised? : Control → Option Failure
  | .asking job l => l.raised?.filter job.minds
  | .idling job (.error why) => if job.minds why then some why else none
  | _ => none

namespace Generation

variable {settings : Settings} {g : Generation} {s : Scene}

theorem outcome?_of_cancelled (h : s.cancelled = true) (hreader : g.reader ≠ .entered) :
    g.outcome? settings s = some (.error cancelledFailure) := by
  unfold outcome?
  cases hr : g.reader with
  | entered => exact absurd hr hreader
  | _ => simp [h]

end Generation

namespace Ladder

open Generation

variable {settings : Settings} {l : Ladder} {s : Scene} {x : Signal}

theorem raised?_of_running {g : Generation} (h : l.course = .running g) : l.raised? = none := by
  rw [raised?, h]

/-- Where the request is cancelled by the end of a step, the ladder is about to end with what it was
about to end with before, or as cancelled. -/
theorem raised?_turn {g : Generation} (hcourse : l.course = .running g)
    (hcancelled : (l.turn settings s g).2.cancelled = true) :
    (l.turn settings s g).1.raised? = none ∨
      (l.turn settings s g).1.raised? = some cancelledFailure := by
  unfold turn at hcancelled ⊢
  cases hreader : g.reader with
  | entered => exact Or.inl rfl
  | _ =>
      simp only [hreader] at hcancelled ⊢
      cases hresult : g.outcome? settings s with
      | none => exact Or.inl (raised?_of_running hcourse)
      | some result =>
          simp only [hresult, Scene.cancelled_release] at hcancelled
          rw [outcome?_of_cancelled hcancelled (by simp [hreader])] at hresult
          cases hresult
          exact Or.inr rfl

theorem raised?_proceed {result : Except Failure Text} (hs : s.Unfailing)
    (hcourse : l.course = .closing result) (hcancelled : (l.proceed s result).2.cancelled = true) :
    (l.proceed s result).1.raised? = l.raised? ∨
      (l.raised? = none ∧ (l.proceed s result).1.raised? = some cancelledFailure) := by
  cases result with
  | error why =>
      rw [show l.raised? = some why by rw [raised?, hcourse]]
      exact Or.inl rfl
  | ok output =>
      cases herrand : l.errand with
      | none =>
          rw [show l.raised? = none by simp only [raised?, hcourse, herrand]]
          simp only [proceed, herrand]
          exact Or.inl rfl
      | some errand =>
          cases hnext : errand.next l.rung output with
          | take =>
              rw [show l.raised? = none by simp only [raised?, hcourse, herrand, hnext]]
              simp only [proceed, herrand, hnext]
              exact Or.inl rfl
          | giveUp =>
              rw [show l.raised? = some (.emptyOutput Failure.emptyText) by
                simp only [raised?, hcourse, herrand, hnext]]
              simp only [proceed, herrand, hnext]
              exact Or.inl rfl
          | retry rung =>
              right
              simp only [proceed, herrand, hnext, hs.emit_eq] at hcancelled ⊢
              refine ⟨by simp only [raised?, hcourse, herrand, hnext], ?_⟩
              rw [enter, if_pos hcancelled]
              rfl

theorem raised?_step (hs : s.Unfailing) (hcancelled : (l.step settings s x).2.cancelled = true) :
    (l.step settings s x).1.raised? = l.raised? ∨
      (l.raised? = none ∧ (l.step settings s x).1.raised? = some cancelledFailure) := by
  cases hcourse : l.course with
  | running g =>
      by_cases hx : x = .resume
      · subst hx
        simp only [step, hcourse] at hcancelled ⊢
        rw [raised?_of_running hcourse]
        exact (raised?_turn hcourse hcancelled).imp_right fun h => ⟨rfl, h⟩
      · obtain ⟨g', es, -, hstep⟩ := exists_step_running settings hcourse hx s.cancelled
        rw [hstep s hs rfl, raised?_of_running hcourse]
        exact Or.inl rfl
  | closing result =>
      cases x with
      | resume =>
          simp only [step, hcourse] at hcancelled ⊢
          exact raised?_proceed hs hcourse hcancelled
      | _ => exact Or.inl (by simp only [step, hcourse])
  | ended result =>
      left
      cases x <;> simp only [step, hcourse]

end Ladder

namespace Run

open Generation

variable {r r' r₁ : Run} {x : Signal}

/-- The failure that a run ends with if it is cancelled now. -/
def fate (r : Run) : Failure := r.control.raised?.getD cancelledFailure

theorem minds_cancelledFailure (job : Job) : job.minds cancelledFailure = true := by
  unfold Job.minds
  split
  · next heq => cases heq
  · rfl

theorem fate_withLadder (r : Run) (job : Job) (l : Ladder) :
    (r.withLadder job l).fate = (l.raised?.filter job.minds).getD cancelledFailure := by
  unfold withLadder Ladder.result?
  cases hcourse : l.course with
  | ended result =>
      cases result with
      | error why => simp [fate, Control.raised?, Ladder.raised?, hcourse, Option.filter]
      | ok output => simp [fate, Control.raised?, Ladder.raised?, hcourse]
  | _ => rfl

theorem fate_enter_of_cancelled (h : r.scene.cancelled = true) (job : Job) (e : Errand)
    (level : Int) (options : SamplingOptions) :
    (r.enter job e level options).fate = cancelledFailure := by
  rw [enter_of_cancelled job e level options h, fate, Control.raised?]
  simp only [minds_cancelledFailure]
  rfl

/-! ### Steps of a cancelled run -/

/-- The run is cancelled and will end with this failure, or has ended with it. -/
inductive Fated (why : Failure) : Run → Prop
  | going {r : Run} (hcancelled : r.scene.cancelled = true) (hopen : r.isOver = false)
      (hfate : r.fate = why) : Fated why r
  | ended (r₁ : Run) : Fated why (r₁.fail why)

theorem fated_succeed {o : Outcome} (h : (r.succeed o).scene.cancelled = true) :
    Fated cancelledFailure (r.succeed o) := by
  by_cases hcancelled : r.scene.cancelled = true
  · rw [succeed_of_cancelled hcancelled]
    exact .ended r
  · have hscene : (r.succeed o).scene =
        (((r.phase .done).dismiss.unbind).scene.emit (.done o)).1 := by
      rw [succeed, if_neg hcancelled]
      rfl
    rw [hscene, Scene.cancelled_emit_of_not_admitted rfl] at h
    exact absurd h hcancelled

theorem fated_enter {job : Job} {e : Errand} {level : Int} {options : SamplingOptions}
    (h : (r.enter job e level options).scene.cancelled = true) :
    Fated cancelledFailure (r.enter job e level options) := by
  rw [scene_enter] at h
  refine .going (by rwa [scene_enter]) ?_ (fate_enter_of_cancelled h job e level options)
  rw [enter_of_cancelled job e level options h]
  rfl

/-- A failure that ends the run ends it at its turn after the ladder. -/
theorem afterLadder_of_minds {job : Job} {why : Failure} (h : job.minds why = true) :
    r.afterLadder job (.error why) = (r.tell .streamIdle).fail why := by
  unfold Job.minds at h
  split at h
  · cases h
  · next hother =>
      unfold afterLadder
      simp only

theorem afterLadder_of_not_minds {job : Job} {why : Failure} (h : job.minds why = false) :
    ∃ first, job = .whole (some first) ∧
      r.afterLadder job (.error why) = (r.tell .streamIdle).afterSecond first none := by
  unfold Job.minds at h
  split at h
  · exact ⟨_, rfl, rfl⟩
  · cases h

theorem fated_afterLadder {job : Job} {result : Except Failure Text}
    (hcontrol : r.control = .idling job result)
    (hcancelled : (r.afterLadder job result).scene.cancelled = true) :
    Fated r.fate (r.afterLadder job result) := by
  cases result with
  | error why =>
      cases hminds : job.minds why with
      | true =>
          have hfate : r.fate = why := by
            rw [fate, hcontrol, Control.raised?, if_pos hminds]
            rfl
          rw [hfate, afterLadder_of_minds hminds]
          exact .ended _
      | false =>
          have hfate : r.fate = cancelledFailure := by
            rw [fate, hcontrol, Control.raised?, if_neg (by simp [hminds])]
            rfl
          obtain ⟨first, -, hafter⟩ := afterLadder_of_not_minds (r := r) hminds
          rw [hfate, hafter]
          rw [hafter] at hcancelled
          exact fated_succeed hcancelled
  | ok output =>
      have hfate : r.fate = cancelledFailure := by
        rw [fate, hcontrol]
        rfl
      rw [hfate]
      have hturn := turn_afterLadder hcontrol
      generalize r.afterLadder job (.ok output) = r' at hturn hcancelled
      cases hturn with
      | breaks hcontrol' _ => rw [hcontrol] at hcontrol'; cases hcontrol'
      | stops _ _ => exact .ended _
      | takesFirst _ _ => exact fated_succeed hcancelled
      | asksAgain _ _ => exact fated_enter hcancelled
      | takesSecond _ _ _ _ => exact fated_succeed hcancelled
      | pauses _ _ _ => exact .going hcancelled rfl rfl
      | joins _ _ _ _ _ => exact fated_succeed hcancelled
      | turnsBack hcontrol' _ => rw [hcontrol] at hcontrol'; cases hcontrol'
      | asksPart hcontrol' _ => rw [hcontrol] at hcontrol'; cases hcontrol'

theorem fated_askPart {p : Parts} (hcancelled : (r.askPart p).scene.cancelled = true) :
    Fated cancelledFailure (r.askPart p) := by
  rcases r.askPart_cases p with ⟨-, hask⟩ | ⟨r₁, -, hask⟩
  · rw [hask]
    exact .ended r
  · rw [hask] at hcancelled ⊢
    exact fated_enter hcancelled

/-- **A run that is cancelled in a step, or was before it, ends with what it would have ended with
then.** -/
theorem fated_step (hr : r.scene.Unfailing) (hopen : r.isOver = false) (x : Signal)
    (hcancelled : (r.step x).scene.cancelled = true) : Fated r.fate (r.step x) := by
  unfold step at hcancelled ⊢
  split at hcancelled
  · exact .going hcancelled hopen rfl
  · exact .going hcancelled hopen rfl
  · next x _ _ job l hcontrol _ _ =>
      have hladder : (l.step r.settings r.scene x).2.cancelled = true := by
        rwa [scene_withLadder] at hcancelled
      have hfate : Run.fate (Run.withLadder { r with scene := (l.step r.settings r.scene x).2 } job
          (l.step r.settings r.scene x).1) = r.fate := by
        rw [fate_withLadder, fate, hcontrol, Control.raised?]
        rcases Ladder.raised?_step hr hladder with heq | ⟨hnone, heq⟩
        · rw [heq]
        · rw [heq, hnone, Option.filter_some, if_pos (minds_cancelledFailure job)]
          rfl
      refine .going hcancelled ?_ hfate
      exact isOver_of_place (place_withLadder _ job _)
  · next job result hcontrol => exact fated_afterLadder hcontrol hcancelled
  · next p hcontrol =>
      rw [show r.fate = cancelledFailure by rw [fate, hcontrol]; rfl]
      exact fated_askPart hcancelled
  · exact .going hcancelled hopen rfl

theorem Fated.step {why : Failure} (h : Fated why r) (hr : r.scene.Unfailing) (x : Signal) :
    Fated why (r.step x) := by
  cases h with
  | going hcancelled hopen hfate =>
      rw [← hfate]
      exact fated_step hr hopen x (cancelled_step hcancelled x)
  | ended r₁ =>
      rw [step_of_isOver (attended_fail r₁ why) rfl]
      exact .ended r₁

theorem Fated.after {why : Failure} (h : Fated why r) (hr : r.scene.Unfailing) (xs : List Signal) :
    Fated why (r.after xs) := by
  induction xs generalizing r with
  | nil => exact h
  | cons x xs ih => exact ih (h.step hr x) (Scene.unfailing_congr hr (host_step r x))

end Run

def Signal.isTurn : Signal → Bool
  | .resume => true
  | _ => false

/-- How many turns a ladder and its run have left at most once the request is cancelled. -/
def Ladder.left (l : Ladder) : Nat :=
  match l.course with
  | .running g => match g.reader with
    | .entered => 4
    | _ => 3
  | .closing (.ok _) => 3
  | .closing (.error _) => 2
  | .ended (.ok _) => 2
  | .ended (.error _) => 1

def Control.left : Control → Nat
  | .asking _ l => l.left
  | .idling _ (.ok _) => 2
  | .idling _ (.error _) => 1
  | .pausing _ => 1
  | .ended _ => 0

namespace Ladder

variable {settings : Settings} {l : Ladder} {s : Scene} {x : Signal}

theorem left_of_running {g : Generation} (h : l.course = .running g)
    (hreader : g.reader ≠ .entered) : l.left = 3 := by
  rw [left, h]
  cases hr : g.reader with
  | entered => exact absurd hr hreader
  | _ => simp only [hr]

theorem left_pos (l : Ladder) : 0 < l.left := by
  unfold left
  split
  · split <;> decide
  all_goals decide

theorem left_le_four (l : Ladder) : l.left ≤ 4 := by
  unfold left
  split
  · split <;> decide
  all_goals decide

theorem left_enter_of_cancelled (h : s.cancelled = true) : (l.enter s).left = 1 := by
  rw [enter, if_pos h]
  rfl

theorem left_turn_lt {g : Generation} (hcancelled : s.cancelled = true)
    (hcourse : l.course = .running g) : (l.turn settings s g).1.left < l.left := by
  unfold turn
  by_cases hreader : g.reader = .entered
  · have hleft : l.left = 4 := by rw [left, hcourse]; simp only [hreader]
    simp only [hreader, hleft]
    exact Nat.lt_succ_self 3
  · rw [left_of_running hcourse hreader]
    have hresult : g.outcome? settings s = some (.error Generation.cancelledFailure) :=
      Generation.outcome?_of_cancelled hcancelled hreader
    cases hr : g.reader with
    | entered => exact absurd hr hreader
    | _ =>
        simp only [hresult]
        exact Nat.lt_succ_self 2

theorem left_proceed_lt {result : Except Failure Text} (hs : s.Unfailing)
    (hcancelled : s.cancelled = true) (hcourse : l.course = .closing result) :
    (l.proceed s result).1.left < l.left := by
  cases result with
  | error why =>
      rw [show l.left = 2 by rw [left, hcourse]]
      exact Nat.lt_succ_self 1
  | ok output =>
      rw [show l.left = 3 by rw [left, hcourse]]
      cases herrand : l.errand with
      | none =>
          simp only [proceed, herrand]
          exact Nat.lt_succ_self 2
      | some errand =>
          cases hnext : errand.next l.rung output with
          | take =>
              simp only [proceed, herrand, hnext]
              exact Nat.lt_succ_self 2
          | giveUp =>
              simp only [proceed, herrand, hnext]
              exact Nat.lt_of_succ_lt (Nat.lt_succ_self 2)
          | retry rung =>
              have hkept : (s.tell .retryClear).cancelled = true :=
                Scene.cancelled_emit_of_cancelled s _ hcancelled
              simp only [proceed, herrand, hnext, hs.emit_eq, left_enter_of_cancelled hkept]
              decide

/-- A turn brings a cancelled ladder nearer to its end. -/
theorem left_step_lt (hs : s.Unfailing) (hcancelled : s.cancelled = true)
    (hopen : l.result? = none) : (l.step settings s .resume).1.left < l.left := by
  cases hcourse : l.course with
  | running g =>
      simp only [step, hcourse]
      exact left_turn_lt hcancelled hcourse
  | closing result =>
      simp only [step, hcourse]
      exact left_proceed_lt hs hcancelled hcourse
  | ended result =>
      rw [result?, hcourse] at hopen
      cases hopen

/-- No other signal takes a ladder back. -/
theorem left_step_le (hs : s.Unfailing) (hx : x ≠ .resume) :
    (l.step settings s x).1.left ≤ l.left := by
  cases hcourse : l.course with
  | running g =>
      obtain ⟨g', es, hheard, hstep⟩ := exists_step_running settings hcourse hx s.cancelled
      rw [hstep s hs rfl]
      by_cases hreader : g.reader = .entered
      · rw [show l.left = 4 by rw [left, hcourse]; simp only [hreader]]
        exact left_le_four _
      · rw [left_of_running hcourse hreader,
          left_of_running rfl fun hr => hreader (hheard.entered hr)]
  | closing result => cases x <;> first | exact absurd rfl hx | simp only [step, hcourse, le_refl]
  | ended result => cases x <;> simp only [step, hcourse, le_refl]

end Ladder

namespace Run

variable {r r₁ : Run} {x : Signal} {host : Host}

theorem left_withLadder (r : Run) (job : Job) (l : Ladder) :
    (r.withLadder job l).control.left = l.left := by
  unfold withLadder Ladder.result?
  cases hcourse : l.course with
  | ended result => cases result <;> simp [Control.left, Ladder.left, hcourse]
  | _ => rfl

theorem left_succeed (r : Run) (o : Outcome) : (r.succeed o).control.left = 0 := by
  unfold succeed
  split <;> rfl

theorem left_enter_of_cancelled (h : r.scene.cancelled = true) (job : Job) (e : Errand)
    (level : Int) (options : SamplingOptions) : (r.enter job e level options).control.left = 1 := by
  rw [enter_of_cancelled job e level options h]
  rfl

theorem climbing_after_begin (settings : Settings) (name : Text) (request : Request) (host : Host)
    (xs : List Signal) : ((begin settings name request host).after xs).Climbing := by
  induction xs using List.reverseRecOn with
  | nil => exact climbing_begin settings name request host
  | append_singleton xs x ih =>
      rw [after_concat]
      exact ih.step (heedful_after_begin settings name request host xs).unfailing x

theorem left_afterLadder_lt {job : Job} {result : Except Failure Text}
    (hcancelled : r.scene.cancelled = true) (hcontrol : r.control = .idling job result) :
    (r.afterLadder job result).control.left < r.control.left := by
  cases result with
  | error why =>
      rw [show r.control.left = 1 by rw [hcontrol]; rfl, Nat.lt_one_iff]
      cases hminds : job.minds why with
      | true => rw [afterLadder_of_minds hminds]; rfl
      | false =>
          obtain ⟨first, -, hafter⟩ := afterLadder_of_not_minds (r := r) hminds
          rw [hafter]
          exact left_succeed _ _
  | ok output =>
      rw [show r.control.left = 2 by rw [hcontrol]; rfl]
      have hturn := turn_afterLadder hcontrol
      generalize r.afterLadder job (.ok output) = r' at hturn
      cases hturn with
      | breaks hcontrol' _ => rw [hcontrol] at hcontrol'; cases hcontrol'
      | stops _ _ => exact Nat.zero_lt_two
      | takesFirst _ _ => rw [left_succeed]; exact Nat.zero_lt_two
      | asksAgain _ told =>
          rw [left_enter_of_cancelled (told.quiet.scene.cancelled hcancelled)]
          exact Nat.one_lt_two
      | takesSecond _ _ _ _ => rw [left_succeed]; exact Nat.zero_lt_two
      | pauses _ _ _ => exact Nat.one_lt_two
      | joins _ _ _ _ _ => rw [left_succeed]; exact Nat.zero_lt_two
      | turnsBack hcontrol' _ => rw [hcontrol] at hcontrol'; cases hcontrol'
      | asksPart hcontrol' _ => rw [hcontrol] at hcontrol'; cases hcontrol'

/-- A turn brings a cancelled run nearer to its end. -/
theorem left_turn_lt (hr : r.scene.Unfailing) (hclimbing : r.Climbing)
    (hcancelled : r.scene.cancelled = true) (hopen : r.isOver = false) :
    (r.step .resume).control.left < r.control.left := by
  cases hcontrol : r.control with
  | asking job l =>
      simp only [step, hcontrol, left_withLadder]
      exact Ladder.left_step_lt hr hcancelled (hclimbing job l hcontrol)
  | idling job result =>
      simp only [step, hcontrol]
      rw [← hcontrol]
      exact left_afterLadder_lt hcancelled hcontrol
  | pausing p =>
      simp only [step, hcontrol, askPart, hcancelled, if_true]
      exact Nat.zero_lt_one
  | ended o =>
      rw [isOver, hcontrol] at hopen
      cases hopen

theorem left_step_le (hr : r.scene.Unfailing) (hx : x ≠ .resume) :
    (r.step x).control.left ≤ r.control.left := by
  unfold step
  split
  · exact Nat.le_refl _
  · exact Nat.le_refl _
  · next job l hcontrol _ _ =>
      rw [left_withLadder, hcontrol]
      exact Ladder.left_step_le hr hx
  · exact absurd rfl hx
  · exact absurd rfl hx
  · exact Nat.le_refl _

theorem isOver_of_left_eq_zero (h : r.control.left = 0) : r.isOver = true := by
  unfold isOver
  cases hcontrol : r.control with
  | ended o => rfl
  | asking job l =>
      rw [hcontrol] at h
      exact absurd h (Nat.ne_of_gt l.left_pos)
  | idling job result =>
      rw [hcontrol] at h
      cases result <;> cases h
  | pausing p =>
      rw [hcontrol] at h
      cases h

theorem left_le_four (r : Run) : r.control.left ≤ 4 := by
  unfold Control.left
  split
  · exact Ladder.left_le_four _
  all_goals decide

/-- **A cancelled run is over after as many turns as it has left.** -/
theorem isOver_after_turns (h : Heedful host r) (hclimbing : r.Climbing)
    (hcancelled : r.scene.cancelled = true) {xs : List Signal}
    (hturns : r.control.left ≤ xs.countP Signal.isTurn) : (r.after xs).isOver = true := by
  induction xs generalizing r with
  | nil => exact isOver_of_left_eq_zero (Nat.le_zero.1 hturns)
  | cons x xs ih =>
      cases hover : r.isOver with
      | true =>
          rw [after_of_isOver h.attended hover]
          exact hover
      | false =>
          refine ih (h.step x) (hclimbing.step h.unfailing x) (cancelled_step hcancelled x) ?_
          by_cases hx : x = .resume
          · subst hx
            have hlt := left_turn_lt h.unfailing hclimbing hcancelled hover
            rw [List.countP_cons_of_pos rfl] at hturns
            omega
          · have hcount : Signal.isTurn x = false := by
              cases x <;> first | rfl | exact absurd rfl hx
            have hle := left_step_le h.unfailing hx
            rw [List.countP_cons_of_neg (by simp [hcount])] at hturns
            omega

/-- A beginning in whose course the host cancels ends as cancelled. -/
theorem fated_begin {settings : Settings} {name : Text} {request : Request} {host : Host}
    (hcancelled : (begin settings name request host).scene.cancelled = true) :
    Fated Generation.cancelledFailure (begin settings name request host) := by
  have hbegins := begins_begin settings name request host
  generalize begin settings name request host = r at hbegins hcancelled
  cases hbegins with
  | turnsBack _ _ => exact .ended _
  | asksPart _ _ _ => exact fated_enter hcancelled
  | asksWhole _ _ => exact fated_enter hcancelled

theorem Fated.exists_fail {why : Failure} (h : Fated why r) (hover : r.isOver = true) :
    ∃ r₁ : Run, r = r₁.fail why := by
  cases h with
  | going _ hopen _ =>
      rw [hover] at hopen
      cases hopen
  | ended r₁ => exact ⟨r₁, rfl⟩

end Run

namespace History

variable {h : History} {t : Nat} {r : Run}

theorem after_concat (h : History) (ms : List Move) (m : Move) :
    h.after (ms ++ [m]) = (h.after ms).next m := after_append h ms [m]

theorem getLastD_append {α : Type} (as bs : List α) (a : α) :
    (as ++ bs).getLastD a = bs.getLastD (as.getLastD a) := by
  rw [List.getLastD_eq_getLast?, List.getLastD_eq_getLast?, List.getLastD_eq_getLast?,
    List.getLast?_append, Option.getD_or]

/-- The desk shows the latest phase of the request under a ticket. -/
def Fronts (t : Nat) (h : History) : Prop :=
  h.desk.phase = (Act.phases (h.actsOf t)).getLastD .idle

theorem Fronts.settled (hfronts : Fronts t h) (r : Run) : Fronts t (h.settled t r) := by
  unfold Fronts at hfronts ⊢
  rw [phase_settled, actsOf_settled_self, Act.phases_append, getLastD_append, hfronts]

theorem Fronts.signal (hfronts : Fronts t h) (hactive : h.desk.active = some (t, r)) (x : Signal) :
    Fronts t (h.next (.signal x)) := by
  rw [next_signal_of_some hactive]
  exact hfronts.settled _

/-- Up to the move that ends it, the desk shows the phase of the request on its way. -/
theorem Fronts.next (hfronts : Fronts t h) (hactive : h.desk.active = some (t, r)) {m : Move}
    (hm : m.ticket? ≠ some t) : Fronts t (h.next m) := by
  cases m with
  | signal x => exact hfronts.signal hactive x
  | submit u name request host =>
      have hne : u ≠ t := fun heq => hm (congrArg some heq)
      have hbusy : h.desk.isBusy = true := by rw [Desk.isBusy, hactive]; rfl
      obtain ⟨d, new, hreaching, hnext⟩ := exists_next_submit (u := u) hbusy name request host
      have hfronts' : Fronts t ⟨d, h.deeds ++ new⟩ := by
        rw [← hreaching]
        rcases (Move.submit u name request host).reaching_cases with hr | ⟨x, hr⟩ <;> rw [hr]
        · exact hfronts
        · exact hfronts.signal hactive x
      unfold Fronts at hfronts' ⊢
      rw [hnext, actsOf_insert, if_neg hne, List.append_nil, ← Deed.actsOf_append]
      exact hfronts'

section Admitted

variable {settings : Settings} {before later : List Move} {ticket : Nat} {name : Text}
  {request : Request} {host : Host}

theorem fronts_arrival
    (hd : (Move.tickets (before ++ .submit ticket name request host :: later)).Nodup)
    (hfree : ((start settings).after before).desk.isBusy = false) :
    Fronts ticket ((start settings).after (before ++ [.submit ticket name request host])) := by
  have hshows := shows_until hd hfree (List.nil_prefix (l := later))
  obtain ⟨ps, q, hphases, -, -⟩ := Run.shown_begin settings name request host
  unfold Fronts
  rw [hshows.acts, after_concat, next_submit_of_free hfree, settings_after, phase_settled]
  show (Act.phases (Run.begin settings name request host).scene.acts.reverse).getLastD _ =
    (Act.phases (Run.begin settings name request host).scene.acts.reverse).getLastD _
  rw [hphases, List.getLastD_cons, List.getLastD_cons]

theorem ticket?_ne_of_mem_later
    (hd : (Move.tickets (before ++ .submit ticket name request host :: later)).Nodup) {m : Move}
    (hm : m ∈ later) : m.ticket? ≠ some ticket := by
  rw [tickets_append] at hd
  have hlater : (ticket :: Move.tickets later).Nodup := (List.nodup_append.1 hd).2.1
  exact fun heq => (List.nodup_cons.1 hlater).1 (List.mem_filterMap.2 ⟨m, hm, heq⟩)

/-- A move while the request is on its way. -/
theorem fronts_concat
    (hd : (Move.tickets (before ++ .submit ticket name request host :: later)).Nodup)
    (hfree : ((start settings).after before).desk.isBusy = false) {most : List Move} {x : Move}
    (hmost : most ++ [x] <+: later)
    (hopen : ((Run.begin settings name request host).after
      (most.flatMap Move.reaching)).isOver = false)
    (hfronts : Fronts ticket ((start settings).after (before ++
      .submit ticket name request host :: most))) :
    Fronts ticket ((start settings).after (before ++ .submit ticket name request host ::
      (most ++ [x]))) := by
  have hshows := shows_until hd hfree ((List.prefix_append most [x]).trans hmost)
  have hx : x ∈ later := hmost.subset (List.mem_append_right _ (List.mem_singleton.2 rfl))
  rw [← List.cons_append, ← List.append_assoc, after_concat]
  exact hfronts.next (hshows.active hopen) (ticket?_ne_of_mem_later hd hx)

/-- **As long as an admitted request is on its way, and after the move that ends it, the desk shows
its phase.** -/
theorem fronts_until
    (hd : (Move.tickets (before ++ .submit ticket name request host :: later)).Nodup)
    (hfree : ((start settings).after before).desk.isBusy = false) {most : List Move} {x : Move}
    (hmost : most ++ [x] <+: later)
    (hopen : ((Run.begin settings name request host).after
      (most.flatMap Move.reaching)).isOver = false) :
    Fronts ticket ((start settings).after (before ++ .submit ticket name request host ::
      (most ++ [x]))) := by
  induction most using List.reverseRecOn generalizing x with
  | nil => exact fronts_concat hd hfree hmost hopen (fronts_arrival hd hfree)
  | append_singleton most y ih =>
      refine fronts_concat hd hfree hmost hopen
        (ih ((List.prefix_append (most ++ [y]) [x]).trans hmost) ?_)
      refine Bool.eq_false_iff.2 fun hover => ?_
      have hattended := (Run.heedful_after_begin settings name request host
        (most.flatMap Move.reaching)).attended
      rw [List.flatMap_append, Run.after_append, Run.after_of_isOver hattended hover, hover] at hopen
      cases hopen

/-! ### Ends -/

/-- The request under a ticket came to nothing, and the last of its events and phases tell the verdict
on this failure. -/
structure FailsWith (ticket : Nat) (why : Failure) (h : History) : Prop where
  results : h.resultsOf ticket = [none]
  event : (Act.events (h.actsOf ticket)).getLast? = some (.error (Run.verdictOn why).2)
  phase : (Act.phases (h.actsOf ticket)).getLast? = some (Run.verdictOn why).1

theorem Shows.failsWith {why : Failure} {r₁ : Run} (hshows : Shows t (r₁.fail why) h) :
    FailsWith t why h where
  results := hshows.results
  event := by
    rw [hshows.acts, Act.events_reverse, Run.events_fail, List.reverse_cons,
      List.getLast?_concat]
  phase := by
    rw [hshows.acts, Act.phases_reverse, Run.phases_fail, List.reverse_cons,
      List.getLast?_concat]

/-- After the moves the request has come to nothing with this failure, if it has come to its end, and
four turns among the last of them are enough for that. By the move that ends it the desk gets to the
phase of the verdict. -/
def EndsWith (settings : Settings) (before : List Move) (arrival : Move) (ticket : Nat)
    (later rest : List Move) (why : Failure) : Prop :=
  let h := (start settings).after (before ++ arrival :: later)
  (4 ≤ (rest.flatMap Move.reaching).countP Signal.isTurn → h.resultsOf ticket ≠ []) ∧
  (h.resultsOf ticket ≠ [] → FailsWith ticket why h ∧
    ∀ most x, arrival :: later = most ++ [x] →
      ((start settings).after (before ++ most)).resultsOf ticket = [] →
      h.desk.phase = (Run.verdictOn why).1)

/-- The move that ends the request. -/
theorem fronts_of_ending
    (hd : (Move.tickets (before ++ .submit ticket name request host :: later)).Nodup)
    (hfree : ((start settings).after before).desk.isBusy = false) {most : List Move} {x : Move}
    (hmost : Move.submit ticket name request host :: later = most ++ [x])
    (hnone : ((start settings).after (before ++ most)).resultsOf ticket = []) :
    Fronts ticket ((start settings).after (before ++ .submit ticket name request host :: later)) := by
  cases most with
  | nil =>
      obtain ⟨-, rfl⟩ := List.cons.inj hmost
      exact fronts_arrival hd hfree
  | cons m most =>
      rw [List.cons_append, List.cons.injEq] at hmost
      obtain ⟨rfl, rfl⟩ := hmost
      refine fronts_until hd hfree (List.prefix_refl _) (Bool.eq_false_iff.2 fun hover => ?_)
      have hresults := (shows_until hd hfree (List.prefix_append most [x])).results
      rw [hover, if_pos rfl] at hresults
      rw [hresults] at hnone
      cases hnone

theorem endsWith_of_fated
    (hd : (Move.tickets (before ++ .submit ticket name request host :: later)).Nodup)
    (hfree : ((start settings).after before).desk.isBusy = false) {front rest : List Move}
    (hlater : later = front ++ rest) {why : Failure}
    (hfated : Run.Fated why ((Run.begin settings name request host).after
      (front.flatMap Move.reaching))) :
    EndsWith settings before (.submit ticket name request host) ticket later rest why := by
  have hshows := shows_until hd hfree (List.prefix_refl later)
  have hheedful := Run.heedful_after_begin settings name request host (front.flatMap Move.reaching)
  have hclimbing := Run.climbing_after_begin settings name request host (front.flatMap Move.reaching)
  have hsplit : (Run.begin settings name request host).after (later.flatMap Move.reaching) =
      ((Run.begin settings name request host).after (front.flatMap Move.reaching)).after
        (rest.flatMap Move.reaching) := by
    rw [hlater, List.flatMap_append, Run.after_append]
  rw [hsplit] at hshows
  generalize (Run.begin settings name request host).after (front.flatMap Move.reaching) = r
    at hfated hheedful hclimbing hshows
  refine ⟨fun hturns hnone => ?_, fun hsettled => ?_⟩
  · have hover : (r.after (rest.flatMap Move.reaching)).isOver = true := by
      cases hfated with
      | going hcancelled _ _ =>
          exact Run.isOver_after_turns hheedful hclimbing hcancelled
            ((Run.left_le_four r).trans hturns)
      | ended r₁ => rw [Run.after_of_isOver (Run.attended_fail r₁ why) rfl]; rfl
    rw [hshows.results, if_pos hover] at hnone
    cases hnone
  · have hover : (r.after (rest.flatMap Move.reaching)).isOver = true := by
      by_contra hopen
      rw [hshows.results, if_neg hopen] at hsettled
      exact hsettled rfl
    obtain ⟨r₁, hfail⟩ := (hfated.after hheedful.unfailing _).exists_fail hover
    rw [hfail] at hshows
    refine ⟨hshows.failsWith, fun most x hmost hnone => ?_⟩
    have hfronts := fronts_of_ending hd hfree hmost hnone
    rw [Fronts, List.getLastD_eq_getLast?, hshows.failsWith.phase] at hfronts
    exact hfronts

/-- A signal that reaches the run on its way, and by the end of which it is cancelled. -/
theorem ends_of_signal
    (hd : (Move.tickets (before ++ .submit ticket name request host :: later)).Nodup)
    (hfree : ((start settings).after before).desk.isBusy = false) {front back : List Move}
    {m : Move} {r : Run} {x : Signal} (hlater : later = front ++ m :: back)
    (hactive : ((start settings).after (before ++
      .submit ticket name request host :: front)).desk.active = some (ticket, r))
    (hm : m.reaching = [x])
    (hcancelled : ((Run.begin settings name request host).after
      ((front ++ [m]).flatMap Move.reaching)).scene.cancelled = true) :
    EndsWith settings before (.submit ticket name request host) ticket later back
      (r.control.raised?.getD Generation.cancelledFailure) := by
  have hfront := shows_until hd hfree ⟨m :: back, hlater.symm⟩
  have hopen : ((Run.begin settings name request host).after
      (front.flatMap Move.reaching)).isOver = false :=
    Bool.eq_false_iff.2 fun hover => hfront.left hover r hactive
  rw [hfront.active hopen, Option.some.injEq, Prod.mk.injEq] at hactive
  have hstep : (Run.begin settings name request host).after
      ((front ++ [m]).flatMap Move.reaching) =
      ((Run.begin settings name request host).after (front.flatMap Move.reaching)).step x := by
    rw [List.flatMap_append, List.flatMap_singleton, hm, Run.after_concat]
  rw [hstep] at hcancelled
  have hfated := Run.fated_step (Run.heedful_after_begin settings name request host
    (front.flatMap Move.reaching)).unfailing hopen x hcancelled
  rw [← hstep] at hfated
  rw [← hactive.2]
  exact endsWith_of_fated hd hfree (by rw [hlater, List.append_assoc]; rfl) hfated

theorem ends_from_outside
    (hd : (Move.tickets (before ++ .submit ticket name request host :: later)).Nodup)
    (hfree : ((start settings).after before).desk.isBusy = false) {front back : List Move}
    {m : Move} {r : Run} (hlater : later = front ++ m :: back)
    (hactive : ((start settings).after (before ++
      .submit ticket name request host :: front)).desk.active = some (ticket, r))
    (hm : m.reaching = [.cancel]) :
    EndsWith settings before (.submit ticket name request host) ticket later back
      (r.control.raised?.getD Generation.cancelledFailure) := by
  refine ends_of_signal hd hfree hlater hactive hm ?_
  have hall : (front ++ [m]) ++ back = later := by rw [hlater, List.append_assoc]; rfl
  have hd' : (Move.tickets (before ++
      .submit ticket name request host :: (front ++ [m]))).Nodup := by
    refine hd.sublist (List.Sublist.filterMap _ ?_)
    rw [← hall]
    exact ((List.sublist_append_left (front ++ [m]) back).cons_cons _).append_left _
  have hsplit : front ++ [m] = front ++ m :: [] := rfl
  exact (cancelled_from_outside hd' hfree hsplit hm hactive).1

theorem ends_upon_event
    (hd : (Move.tickets (before ++ .submit ticket name request host :: later)).Nodup)
    (hfree : ((start settings).after before).desk.isBusy = false) {front back : List Move}
    {m : Move} {r : Run} {new more : List Act} {e : Event} (hlater : later = front ++ m :: back)
    (hactive : ((start settings).after (before ++
      .submit ticket name request host :: front)).desk.active = some (ticket, r))
    (hacts : ((start settings).after (before ++
        .submit ticket name request host :: (front ++ [m]))).actsOf ticket =
      ((start settings).after (before ++
        .submit ticket name request host :: front)).actsOf ticket ++ (new ++ .event e :: more))
    (hhost : host (e :: (Act.events (((start settings).after (before ++
      .submit ticket name request host :: front)).actsOf ticket ++ new)).reverse) = .cancel)
    (hdone : ∀ o, e ≠ .done o) :
    EndsWith settings before (.submit ticket name request host) ticket later back
      (r.control.raised?.getD Generation.cancelledFailure) := by
  have hall : later = (front ++ [m]) ++ back := by rw [hlater, List.append_assoc]; rfl
  have hfront := shows_until hd hfree ⟨m :: back, hlater.symm⟩
  have hnext := shows_until hd hfree ⟨back, hall.symm⟩
  rw [hfront.acts] at hhost hacts
  rw [hnext.acts] at hacts
  rcases m.reaching_cases with hm | ⟨x, hm⟩
  · -- a move that does not reach the run adds nothing to its acts
    rw [List.flatMap_append, List.flatMap_singleton, hm, List.append_nil,
      List.self_eq_append_right] at hacts
    simp at hacts
  · refine ends_of_signal hd hfree hlater hactive hm ?_
    have hheedful := Run.heedful_after_begin settings name request host
      ((front ++ [m]).flatMap Move.reaching)
    have htold : ((Run.begin settings name request host).after
          ((front ++ [m]).flatMap Move.reaching)).scene.acts =
        more.reverse ++ .event e :: (new.reverse ++
          ((Run.begin settings name request host).after (front.flatMap Move.reaching)).scene.acts)
        := by
      rw [← List.reverse_inj, hacts]
      simp
    refine hheedful.cancelled_of_host htold ?_ hdone
    rwa [Act.events_append, List.reverse_append, ← Act.events_reverse, ← Act.events_reverse,
      List.reverse_reverse, ← Act.events_append] at hhost

theorem ends_upon_begin
    (hd : (Move.tickets (before ++ .submit ticket name request host :: later)).Nodup)
    (hfree : ((start settings).after before).desk.isBusy = false) {old new : List Act} {e : Event}
    (hacts : ((start settings).after (before ++
      [.submit ticket name request host])).actsOf ticket = old ++ .event e :: new)
    (hhost : host (e :: (Act.events old).reverse) = .cancel) (hdone : ∀ o, e ≠ .done o) :
    EndsWith settings before (.submit ticket name request host) ticket later later
      Generation.cancelledFailure := by
  rw [(shows_until hd hfree (List.nil_prefix (l := later))).acts] at hacts
  have hcancelled : (Run.begin settings name request host).scene.cancelled = true := by
    have htold : (Run.begin settings name request host).scene.acts =
        new.reverse ++ .event e :: old.reverse := by
      rw [← List.reverse_inj]
      refine hacts.trans ?_
      simp
    exact (Run.heedful_begin settings name request host).cancelled_of_host htold
      (by rwa [Act.events_reverse]) hdone
  have hsplit : later = [] ++ later := rfl
  exact endsWith_of_fated hd hfree hsplit (Run.fated_begin hcancelled)

end Admitted

/-- **A request that is cancelled ends with the failure that was raised by then, or as cancelled if
there was none.** It may be cancelled from outside while it is on its way, by its own host when it is
told an event in one of its moves, or by its host when it begins. Four more turns end it. -/
theorem cancelled_ends_with_raised {settings : Settings} {before later : List Move} {ticket : Nat}
    {name : Text} {request : Request} {host : Host}
    (hd : (Move.tickets (before ++ .submit ticket name request host :: later)).Nodup)
    (hfree : ((start settings).after before).desk.isBusy = false) :
    let arrival := Move.submit ticket name request host
    let upTo (ms : List Move) := (start settings).after (before ++ arrival :: ms)
    let Ends := EndsWith settings before arrival ticket later
    (∀ front m back r, later = front ++ m :: back →
      (upTo front).desk.active = some (ticket, r) → m.reaching = [.cancel] →
      Ends back (r.control.raised?.getD Generation.cancelledFailure)) ∧
    (∀ front m back r new e more, later = front ++ m :: back →
      (upTo front).desk.active = some (ticket, r) →
      (upTo (front ++ [m])).actsOf ticket =
        (upTo front).actsOf ticket ++ (new ++ .event e :: more) →
      host (e :: (Act.events ((upTo front).actsOf ticket ++ new)).reverse) = .cancel →
      (∀ o, e ≠ .done o) →
      Ends back (r.control.raised?.getD Generation.cancelledFailure)) ∧
    (∀ old e new, (upTo []).actsOf ticket = old ++ .event e :: new →
      host (e :: (Act.events old).reverse) = .cancel → (∀ o, e ≠ .done o) →
      Ends later Generation.cancelledFailure) := by
  intro arrival upTo Ends
  refine ⟨fun front m back r hlater hactive hm => ?_,
    fun front m back r new e more hlater hactive hacts hhost hdone => ?_,
    fun old e new hacts hhost hdone => ?_⟩
  · exact ends_from_outside hd hfree hlater hactive hm
  · exact ends_upon_event hd hfree hlater hactive hacts hhost hdone
  · exact ends_upon_begin hd hfree hacts hhost hdone

/-- The server breaks the stream, and the request is cancelled before its turn comes: it ends as
cancelled. -/
theorem cancelled_at_broken_stream :
    let request : Request := { code := "a = 1".toList, code_filled := by decide }
    let front : List Move := [.signal .resume, .signal .opened,
      .signal (.broke (.inference "boom".toList none))]
    let back : List Move := [.signal .resume, .signal .resume, .signal .resume, .signal .resume]
    let h := (start {}).after (.submit 0 [] request (fun _ => .pass) ::
      (front ++ .signal .cancel :: back))
    h.resultsOf 0 = [none] ∧
      (Act.events (h.actsOf 0)).getLast? = some (.error "Optimization cancelled.".toList) ∧
      (Act.phases (h.actsOf 0)).getLast? = some .idle := by
  intro request front back h
  have hactive : ((start {}).after (.submit 0 [] request (fun _ => .pass) :: front)).desk.active.map
      (fun entry => (entry.1, entry.2.control.raised?)) = some (0, none) := by
    decide +kernel
  have hd : (Move.tickets (.submit 0 [] request (fun _ => .pass) ::
      (front ++ .signal .cancel :: back))).Nodup := by decide
  clear_value request
  obtain ⟨⟨ticket, r⟩, hr, heq⟩ := Option.map_eq_some_iff.1 hactive
  rw [Prod.mk.injEq] at heq
  obtain ⟨rfl, hnone⟩ := heq
  obtain ⟨hturns, hends⟩ := (@cancelled_ends_with_raised {} [] (front ++ .signal .cancel :: back) 0 []
    request (fun _ => .pass) hd rfl).1 front (.signal .cancel) back r rfl hr rfl
  rw [hnone] at hends
  obtain ⟨⟨hresults, hevent, hphase⟩, -⟩ := hends (hturns (by decide))
  exact ⟨hresults, hevent, hphase⟩

/-- The engine refuses the call, and the host cancels when it is told that the stream is idle. The
request fails all the same. -/
theorem failed_though_cancelled :
    let request : Request := { code := "a = 1".toList, code_filled := by decide }
    let host : Host := fun told => match told with
      | .streamIdle :: _ => .cancel
      | _ => .pass
    let h := (start {}).after [.submit 0 [] request host, .signal .resume,
      .signal (.refused (.inference "boom".toList none)), .signal .resume, .signal .resume,
      .signal .resume]
    (∃ old new, Act.events (h.actsOf 0) = old ++ .streamIdle :: new ∧
        host (.streamIdle :: old.reverse) = .cancel) ∧
      h.resultsOf 0 = [none] ∧ h.desk.phase = .failed ∧
      (Act.events (h.actsOf 0)).getLast? = some (.error "Optimization failed: boom".toList) := by
  intro request host h
  let told : Event → String × Text := fun e => (e.name, match e with
    | .error m => m
    | _ => [])
  have hevents : (Act.events (h.actsOf 0)).map told = [("stage", []), ("stage", []),
      ("substage", []), ("stream_idle", []), ("error", "Optimization failed: boom".toList)] := by
    decide +kernel
  have hresults : (h.resultsOf 0).map Option.isSome = [false] := by decide +kernel
  have hphase : h.desk.phase = .failed := by decide +kernel
  clear_value h
  have hlast := congrArg List.getLast? hevents
  rw [List.getLast?_map] at hlast
  obtain ⟨last, hlast, herror⟩ := Option.map_eq_some_iff.1 hlast
  obtain ⟨idle, hmem, hidle⟩ : ∃ e ∈ Act.events (h.actsOf 0), told e = ("stream_idle", []) := by
    rw [← List.mem_map, hevents]
    simp
  obtain ⟨old, new, hsplit⟩ := List.append_of_mem hmem
  have hnone : h.resultsOf 0 = [none] := by
    simpa [List.map_eq_cons_iff, Option.isSome_eq_false_iff] using hresults
  refine ⟨⟨old, new, ?_, rfl⟩, hnone, hphase, ?_⟩
  · cases idle with
    | streamIdle => exact hsplit
    | _ => simp [told, Event.name] at hidle
  · cases last with
    | error m => rw [hlast, show m = _ from (Prod.mk.inj herror).2]
    | _ => simp [told, Event.name] at herror

end History
end Refinery
