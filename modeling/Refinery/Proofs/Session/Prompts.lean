import Refinery.Proofs.Prompt.Shape
import Refinery.Proofs.Session.Climb
import Refinery.Proofs.Session.Release
import Refinery.Proofs.Session.Retry
import Refinery.Proofs.Text.Trim

/-!
The prompts of a ladder. Each prompt ends with the code in a block and the cursor, with the directive
in between where the output before it was cut off; it has the directive once. The levels go up with
the blank outputs and never down, so that a ladder does not come back to the full prompt.
-/

namespace Refinery

namespace Dangling

end Dangling

namespace Errand

variable {e : Errand} {level : Int} {os : List Text} {o p : Text} {rung rung' : Rung}

/-- The prompt that follows these outputs, all of which were asked for again. -/
def promptAfter (e : Errand) (level : Int) (os : List Text) : Text :=
  let plain := e.prompt (level + os.countP Text.blank)
  if os.getLast?.any isCutOff then Prompt.withDirective plain else plain

theorem countP_blank_concat (os : List Text) (o : Text) :
    (os ++ [o]).countP Text.blank = os.countP Text.blank + if Text.blank o then 1 else 0 := by
  rw [List.countP_append, List.countP_singleton]

/-- Behind a blank output the prompt of the next level is built. -/
theorem promptAfter_concat_of_blank (h : Text.blank o = true) :
    e.promptAfter level (os ++ [o]) = e.prompt (level + os.countP Text.blank + 1) := by
  have hcut : (os ++ [o]).getLast?.any isCutOff = false := by
    rw [List.getLast?_concat, Option.any_some, isCutOff, h]
    rfl
  have hlevel : level + ((os ++ [o]).countP Text.blank : Nat) =
      level + os.countP Text.blank + 1 := by
    rw [countP_blank_concat, if_pos h]
    omega
  rw [promptAfter, hcut, if_neg Bool.false_ne_true, hlevel]

/-- Behind a cut-off output the prompt before it has the directive. -/
theorem promptAfter_concat_of_isCutOff (h : isCutOff o = true) :
    e.promptAfter level (os ++ [o]) = Prompt.withDirective (e.promptAfter level os) := by
  have hblank : Text.blank o = false := by
    simp only [isCutOff, Bool.and_eq_true, Bool.not_eq_true'] at h
    exact h.1
  have hcut : (os ++ [o]).getLast?.any isCutOff = true := by
    rw [List.getLast?_concat, Option.any_some, h]
  have hcount : (os ++ [o]).countP Text.blank = os.countP Text.blank := by
    rw [countP_blank_concat, if_neg (by rw [hblank]; exact Bool.false_ne_true), Nat.add_zero]
  rw [promptAfter, hcut, if_pos rfl, hcount, promptAfter]
  split
  · exact (Prompt.withDirective_withDirective _).symm
  · rfl

/-- The rung that a ladder is on after some outputs, by its level and its prompt. -/
structure Reaches (e : Errand) (level : Int) (os : List Text) (rung : Rung) : Prop where
  level_eq : rung.level = level + os.countP Text.blank
  prompt_eq : rung.prompt = e.promptAfter level os

/-- **The next rung.** A blank output leads to the next level, where the prompt is built anew; behind
a cut-off one the same prompt has the directive. -/
theorem Reaches.next (h : e.Reaches level os rung) (hnext : e.next rung o = .retry rung') :
    e.Reaches level (os ++ [o]) rung' := by
  have hcount := countP_blank_concat os o
  unfold Errand.next at hnext
  cases hblank : Text.blank o with
  | true =>
      rw [hblank, if_pos rfl] at hnext hcount
      split at hnext
      · cases hnext
      · cases hnext
        refine ⟨?_, ?_⟩
        · show rung.level + 1 = _
          rw [hcount, h.level_eq]
          omega
        · rw [promptAfter_concat_of_blank hblank, h.level_eq]
  | false =>
      rw [hblank, if_neg Bool.false_ne_true] at hnext hcount
      split at hnext
      · next hagain =>
        cases hnext
        have hcut : isCutOff o = true := by
          simp only [Bool.and_eq_true] at hagain
          rw [isCutOff, hblank, hagain.2]
          rfl
        refine ⟨by rw [hcount, h.level_eq, Nat.add_zero], ?_⟩
        rw [promptAfter_concat_of_isCutOff hcut, h.prompt_eq]
      · cases hnext

end Errand

/-! ### The prompts that are sent -/

/-- The prompt with which the engine is called. -/
def Entry.prompt? : Entry → Option Text
  | act a => a.call?.map (·.1)
  | _ => none

/-- The prompts of the calls among some entries, in their order. -/
def Entry.prompts (entries : List Entry) : List Text := entries.filterMap prompt?

namespace Generation

variable {settings : Settings} {g : Generation} {s : Scene}

/-- A call that was not made hears nothing that makes it. -/
theorem signal_of_entered (h : g.reader = .entered) (settings : Settings) (s : Scene) (x : Signal) :
    (g.signal settings s x).1.reader = .entered ∧
      (g.signal settings s x).1.prompt = g.prompt ∧
      (g.signal settings s x).1.options = g.options := by
  cases x <;> simp [signal, h]

/-- A call that was made is not made again. -/
theorem entered_of_signal {x : Signal} (h : (g.signal settings s x).1.reader = .entered) :
    g.reader = .entered := by
  have hawaits : (g.signal settings s x).1.awaitsHandle = true := by
    rw [awaitsHandle, h]
  rcases (g.reads_signal settings s x).handle_cases with ⟨-, hreceives⟩ | ⟨-, hkeeps⟩
  · rw [hreceives.received] at hawaits
    cases hawaits
  · exact (hkeeps.reader hawaits).symm.trans h

end Generation

namespace Ladder

variable {settings : Settings} {e : Errand} {level : Int} {l : Ladder} {s : Scene} {os : List Text}
  {n : Nat} {rs : List (Except Failure Text)} {x : Signal}

/-- The call that a ladder makes at its turn. -/
def posed (l : Ladder) : Signal → List (Text × SamplingOptions)
  | .resume => l.entered?.toList
  | _ => []

theorem posed_of_ne (l : Ladder) {x : Signal} (hx : x ≠ .resume) : l.posed x = [] := by
  cases x with
  | resume => exact absurd rfl hx
  | _ => rfl

theorem posed_of_not_entered (h : l.entered? = none) (x : Signal) : l.posed x = [] := by
  unfold posed
  split
  · rw [h]
    rfl
  · rfl

theorem exists_running_of_entered? {c : Text × SamplingOptions} (h : l.entered? = some c) :
    ∃ g, l.course = .running g ∧ g.reader = .entered ∧ c = (g.prompt, g.options) := by
  unfold entered? at h
  split at h
  · next g hcourse =>
    split at h
    · next hreader => exact ⟨g, hcourse, hreader, (Option.some.inj h).symm⟩
    · cases h
  · cases h

theorem entered?_eq_none {g : Generation} (hcourse : l.course = .running g)
    (hreader : g.reader ≠ .entered) : l.entered? = none := by
  rw [Option.eq_none_iff_forall_not_mem]
  intro c hc
  obtain ⟨g', hcourse', hreader', -⟩ := exists_running_of_entered? hc
  cases hcourse.symm.trans hcourse'
  exact hreader hreader'

/-- A turn enters no call. -/
theorem entered?_turn {g : Generation} (settings : Settings) (s : Scene)
    (hcourse : l.course = .running g) : (l.turn settings s g).1.entered? = none := by
  unfold turn
  cases hreader : g.reader with
  | entered => rfl
  | _ =>
      simp only
      split
      · exact entered?_eq_none hcourse (by rw [hreader]; exact fun h => by cases h)
      · rfl

/-- How many prompts were sent, and what the calls came to, after outputs that were asked for again:
the next call is entered, it was made, or the ladder is at its end. -/
inductive Stage (e : Errand) (level : Int) (l : Ladder) (os : List Text) :
    Nat → List (Except Failure Text) → Prop
  | enters {options : SamplingOptions} (herrand : l.errand = some e)
      (hrung : e.Reaches level os l.rung) (hentered : l.entered? = some (l.rung.prompt, options)) :
      Stage e level l os os.length (os.map .ok)
  | waits (herrand : l.errand = some e) (hrung : e.Reaches level os l.rung)
      (hopen : l.result? = none) (hentered : l.entered? = none) :
      Stage e level l os (os.length + 1) (os.map .ok)
  | finished {r : Except Failure Text} {n : Nat} {rs : List (Except Failure Text)}
      (hresult : l.result? = some r) (hn : n ≤ os.length + 1) (hrs : os.map .ok <+: rs) :
      Stage e level l os n rs

theorem stage_enter (herrand : l.errand = some e) (hrung : e.Reaches level os l.rung) (s : Scene) :
    (l.enter s).Stage e level os os.length (os.map .ok) := by
  unfold enter
  split
  · exact .finished rfl (Nat.le_succ _) List.prefix_rfl
  · exact .enters herrand hrung rfl

/-- Behind a call a ladder is at its end, or it enters the call of the next rung. -/
theorem stage_proceed (herrand : l.errand = some e) (hrung : e.Reaches level os l.rung) (s : Scene)
    (result : Except Failure Text) : ∃ os', os <+: os' ∧
      (l.proceed s result).1.Stage e level os' (os.length + 1) (os.map .ok ++ [result]) := by
  have hover : ∀ {l' : Ladder} {r : Except Failure Text}, l'.result? = some r →
      ∃ os', os <+: os' ∧ l'.Stage e level os' (os.length + 1) (os.map .ok ++ [result]) :=
    fun hresult => ⟨os, List.prefix_rfl, .finished hresult (Nat.le_refl _) (List.prefix_append _ _)⟩
  cases result with
  | error why => exact hover rfl
  | ok o =>
      cases hnext : e.next l.rung o with
      | take =>
          simp only [proceed, herrand, hnext]
          exact hover rfl
      | giveUp =>
          simp only [proceed, herrand, hnext]
          exact hover rfl
      | retry rung =>
          simp only [proceed, herrand, hnext]
          split
          · exact hover rfl
          · have hrung' := hrung.next hnext
            have hstage := stage_enter (l := ⟨some e, rung, l.options, l.course⟩) rfl hrung'
            rw [List.length_append, List.map_append] at hstage
            exact ⟨os ++ [o], List.prefix_append os [o], hstage _⟩

theorem given_of_ne (l : Ladder) {x : Signal} (hx : x ≠ .resume) : l.given x = [] := by
  unfold given
  split
  · exact absurd rfl hx
  · rfl

/-- A call that is entered is made at its turn, and not before. -/
theorem stage_step_of_entered {options : SamplingOptions} (herrand : l.errand = some e)
    (hrung : e.Reaches level os l.rung) (hentered : l.entered? = some (l.rung.prompt, options))
    (settings : Settings) (s : Scene) (x : Signal) :
    (l.step settings s x).1.Stage e level os (os.length + (l.posed x).length)
        (os.map .ok ++ l.given x) ∧
      ∀ c ∈ l.posed x, c.1 = e.promptAfter level os := by
  obtain ⟨g, hcourse, hreader, hcall⟩ := exists_running_of_entered? hentered
  obtain ⟨hprompt, hoptions⟩ := Prod.mk.inj hcall
  rw [given_of_running hcourse, List.append_nil]
  by_cases hx : x = .resume
  · subst hx
    have hposed : l.posed .resume = [(l.rung.prompt, options)] := by
      rw [posed, hentered]
      rfl
    have hstep : l.step settings s .resume =
        ({ l with course := .running (g.start s).1 }, (g.start s).2) := by
      simp only [Ladder.step, hcourse, turn, hreader]
    rw [hposed, hstep]
    refine ⟨.waits herrand hrung rfl rfl, fun c hc => ?_⟩
    rw [List.mem_singleton.1 hc]
    exact hrung.prompt_eq
  · rw [posed_of_ne l hx, step_of_running settings s hcourse hx]
    obtain ⟨hreader', hprompt', hoptions'⟩ := g.signal_of_entered hreader settings s x
    have hentered' : entered? { l with course := .running (g.signal settings s x).1 } =
        some (l.rung.prompt, options) := by
      rw [entered?_of_running rfl hreader', hprompt', hoptions', ← hprompt, ← hoptions]
    exact ⟨.enters herrand hrung hentered', fun _ hc => absurd hc List.not_mem_nil⟩

/-- A call that was made is waited for. -/
theorem stage_step_of_running {g : Generation} (herrand : l.errand = some e)
    (hrung : e.Reaches level os l.rung) (hentered : l.entered? = none)
    (hcourse : l.course = .running g) (settings : Settings) (s : Scene) (x : Signal) :
    (l.step settings s x).1.Stage e level os (os.length + 1) (os.map .ok) := by
  by_cases hx : x = .resume
  · subst hx
    have hstep : l.step settings s .resume = l.turn settings s g := by
      simp only [Ladder.step, hcourse]
    obtain ⟨herrand', hrung', hopen'⟩ := turn_of_running settings s hcourse
    rw [hstep]
    exact .waits (herrand'.trans herrand) (hrung' ▸ hrung) hopen' (entered?_turn settings s hcourse)
  · rw [step_of_running settings s hcourse hx]
    refine .waits herrand hrung rfl (entered?_eq_none rfl fun hreader => ?_)
    have hbefore := g.entered_of_signal hreader
    rw [entered?_of_running hcourse hbefore] at hentered
    cases hentered

/-- What a call came to is looked at when it is the ladder's turn. -/
theorem stage_step_of_closing {result : Except Failure Text} (herrand : l.errand = some e)
    (hrung : e.Reaches level os l.rung) (hopen : l.result? = none) (hentered : l.entered? = none)
    (hcourse : l.course = .closing result) (settings : Settings) (s : Scene) (x : Signal) :
    ∃ os', os <+: os' ∧ (l.step settings s x).1.Stage e level os' (os.length + 1)
      (os.map .ok ++ l.given x) := by
  by_cases hx : x = .resume
  · subst hx
    have hstep : l.step settings s .resume = l.proceed s result := by
      simp only [Ladder.step, hcourse]
    have hgiven : l.given .resume = [result] := by simp only [given, hcourse]
    rw [hstep, hgiven]
    exact stage_proceed herrand hrung s result
  · have hrunning : ∀ g, l.course ≠ .running g := fun g hg => by cases hcourse.symm.trans hg
    rw [(step_of_given settings s hrunning (l.given_of_ne hx)).1, l.given_of_ne hx, List.append_nil]
    exact ⟨os, List.prefix_rfl, .waits herrand hrung hopen hentered⟩

/-- A ladder that is over stays as it is and sends nothing. -/
theorem step_of_result? {r : Except Failure Text} (hresult : l.result? = some r)
    (settings : Settings) (s : Scene) (x : Signal) :
    l.posed x = [] ∧ l.given x = [] ∧ (l.step settings s x).1 = l := by
  have hgiven := given_of_ended hresult x
  have hrunning : ∀ g, l.course ≠ .running g := by
    intro g hcourse
    rw [result?, hcourse] at hresult
    cases hresult
  have hentered : l.entered? = none := by
    rw [Option.eq_none_iff_forall_not_mem]
    intro c hc
    obtain ⟨g, hcourse, -⟩ := exists_running_of_entered? hc
    exact hrunning g hcourse
  exact ⟨posed_of_not_entered hentered x, hgiven, (step_of_given settings s hrunning hgiven).1⟩

/-- **One step preserves it**; what it sends is the prompt that follows the outputs. -/
theorem Stage.step (h : l.Stage e level os n rs) (settings : Settings) (s : Scene) (x : Signal) :
    (∃ os', os <+: os' ∧
      (l.step settings s x).1.Stage e level os' (n + (l.posed x).length) (rs ++ l.given x)) ∧
    ∀ c ∈ l.posed x, n = os.length ∧ c.1 = e.promptAfter level os := by
  have hnone : ∀ c ∈ ([] : List (Text × SamplingOptions)),
      n = os.length ∧ c.1 = e.promptAfter level os := fun _ hc => absurd hc List.not_mem_nil
  cases h with
  | enters herrand hrung hentered =>
      obtain ⟨hstage, hprompt⟩ := stage_step_of_entered herrand hrung hentered settings s x
      exact ⟨⟨os, List.prefix_rfl, hstage⟩, fun c hc => ⟨rfl, hprompt c hc⟩⟩
  | waits herrand hrung hopen hentered =>
      rw [posed_of_not_entered hentered]
      refine ⟨?_, hnone⟩
      cases hcourse : l.course with
      | running g =>
          rw [given_of_running hcourse, List.append_nil]
          exact ⟨os, List.prefix_rfl,
            stage_step_of_running herrand hrung hentered hcourse settings s x⟩
      | closing result =>
          exact stage_step_of_closing herrand hrung hopen hentered hcourse settings s x
      | ended r =>
          rw [result?, hcourse] at hopen
          cases hopen
  | finished hresult hn hrs =>
      obtain ⟨hposed, hgiven, hstep⟩ := step_of_result? hresult settings s x
      rw [hposed, hgiven, List.append_nil, hstep]
      exact ⟨⟨os, List.prefix_rfl, .finished hresult hn hrs⟩, hnone⟩

end Ladder

/-! ### Every ladder -/

namespace Transcript

end Transcript
end Refinery
