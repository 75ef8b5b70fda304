import Mathlib.Data.List.Induction
import Mathlib.Data.Nat.Find
import Refinery.Proofs.Session.Call
import Refinery.Proofs.Session.Reading
import Refinery.Proofs.Session.Transcript

/-!
When a ladder stops. Blank outputs lead up to the last level and cut-off outputs use up the
allowance, in whatever order they come, so the first output that neither leads on nor is asked for
again comes within so many calls. It is taken, or it is the blank output of the last level and the
ladder gives up. In front of each retry, and only there, the shown text is taken back.
-/

namespace Refinery

namespace Errand

/-- How often cut-off output is asked for again at most. -/
def allowance (e : Errand) : Nat := e.maxRetries.toNat

def isCutOff (output : Text) : Bool := !Text.blank output && Dangling.looksIncomplete output

/-- After these earlier outputs of a ladder that began at a level, this one is the last: a blank one
if the levels are used up, and another one if it need not, or may not, be asked for again. -/
def Stops (e : Errand) (level : Int) (earlier : List Text) (output : Text) : Prop :=
  if Text.blank output then Prompt.maxLevel ≤ level + earlier.countP Text.blank
  else e.fast = true ∨ e.allowance ≤ earlier.countP isCutOff ∨
    Dangling.looksIncomplete output = false

instance (e : Errand) (level : Int) (earlier : List Text) (output : Text) :
    Decidable (e.Stops level earlier output) := inferInstanceAs (Decidable (ite _ _ _))

/-- None of these outputs was the last. -/
def Unstopped (e : Errand) (level : Int) (os : List Text) : Prop :=
  ∀ earlier o, earlier ++ [o] <+: os → ¬ e.Stops level earlier o

/-- The rung that a ladder is on after these outputs, all of which were asked for again. -/
structure Stands (e : Errand) (level : Int) (os : List Text) (rung : Rung) : Prop where
  level_eq : rung.level = level + os.countP Text.blank
  retries_eq : rung.retries = os.countP isCutOff

/-- How many retries are left on a rung at most: the levels above it, and what is left of the
allowance. -/
def spare (e : Errand) (rung : Rung) : Nat :=
  (Prompt.maxLevel - rung.level).toNat +
    if e.fast then 0 else (e.maxRetries - rung.retries).toNat

variable {e : Errand} {level : Int} {os : List Text} {o : Text} {rung rung' : Rung}

theorem stands_first (e : Errand) (level : Int) : e.Stands level [] (e.first level) :=
  ⟨(Int.add_zero level).symm, rfl⟩

theorem spare_first (e : Errand) (level : Int) : e.spare (e.first level) =
    (Prompt.maxLevel - level).toNat + if e.fast then 0 else e.allowance := by
  unfold spare allowance
  rw [show e.maxRetries - (e.first level).retries = e.maxRetries from Int.sub_zero _]
  rfl

theorem spare_first_le (e : Errand) (level : Int) :
    e.spare (e.first level) ≤ (Prompt.maxLevel - level).toNat + e.allowance := by
  rw [spare_first]
  split <;> omega

/-- Every retry uses up one of those that are left. -/
theorem spare_of_next (h : e.next rung o = .retry rung') : e.spare rung' + 1 = e.spare rung := by
  unfold next at h
  split at h
  · split at h
    · cases h
    · next hlevel =>
        cases h
        unfold spare
        simp only
        omega
  · split at h
    · next hagain =>
        cases h
        simp only [Bool.and_eq_true, Bool.not_eq_true', decide_eq_true_eq] at hagain
        unfold spare
        simp only [hagain.1.1, Bool.false_eq_true, if_false]
        have hleft := hagain.1.2
        omega
    · cases h

theorem next_of_stops (hrung : e.Stands level os rung) (h : e.Stops level os o) :
    e.next rung o = if Text.blank o then .giveUp else .take := by
  unfold Stops at h
  unfold next
  cases hblank : Text.blank o with
  | true =>
      rw [if_pos hblank] at h
      rw [if_pos rfl, if_pos rfl, if_pos (hrung.level_eq ▸ h)]
  | false =>
      rw [hblank, if_neg Bool.false_ne_true] at h
      rw [if_neg Bool.false_ne_true, if_neg Bool.false_ne_true, if_neg]
      simp only [Bool.and_eq_true, Bool.not_eq_true', decide_eq_true_eq, hrung.retries_eq]
      rintro ⟨⟨hslow, hleft⟩, hcut⟩
      rcases h with hfast | hspent | hwhole
      · exact absurd (hslow.symm.trans hfast) Bool.false_ne_true
      · unfold allowance at hspent
        omega
      · exact absurd (hwhole.symm.trans hcut) Bool.false_ne_true

theorem next_of_not_stops (hrung : e.Stands level os rung) (h : ¬ e.Stops level os o) :
    ∃ rung', e.next rung o = .retry rung' ∧ e.Stands level (os ++ [o]) rung' := by
  obtain ⟨hlevel, hretries⟩ := hrung
  unfold Stops at h
  unfold next
  cases hblank : Text.blank o with
  | true =>
      rw [if_pos hblank, ← hlevel] at h
      have hcut : isCutOff o = false := by rw [isCutOff, hblank]; rfl
      refine ⟨⟨rung.level + 1, rung.retries, e.prompt (rung.level + 1)⟩, ?_, ?_, ?_⟩
      · rw [if_pos rfl, if_neg h]
      · simp only [List.countP_append, List.countP_singleton, hblank, if_true, hlevel]
        omega
      · simp only [List.countP_append, List.countP_singleton, hcut, Bool.false_eq_true, if_false,
          hretries, Nat.add_zero]
  | false =>
      rw [hblank, if_neg Bool.false_ne_true, not_or, not_or, Bool.not_eq_true, Bool.not_eq_false]
        at h
      obtain ⟨hslow, hleft, hincomplete⟩ := h
      have hcut : isCutOff o = true := by rw [isCutOff, hblank, hincomplete]; rfl
      refine ⟨⟨rung.level, rung.retries + 1, Prompt.withDirective rung.prompt⟩, ?_, ?_, ?_⟩
      · rw [if_neg Bool.false_ne_true, if_pos]
        simp only [hslow, hincomplete, hretries, Bool.not_false, Bool.true_and, Bool.and_true,
          decide_eq_true_eq]
        unfold allowance at hleft
        omega
      · simp only [List.countP_append, List.countP_singleton, hblank, Bool.false_eq_true, if_false,
          hlevel, Nat.add_zero]
      · simp only [List.countP_append, List.countP_singleton, hcut, if_true, hretries]
        omega

theorem unstopped_nil (e : Errand) (level : Int) : e.Unstopped level [] := by
  intro earlier o hfront
  exact absurd (List.prefix_nil.1 hfront) (by simp)

theorem Unstopped.of_prefix {os' : List Text} (h : e.Unstopped level os') (hos : os <+: os') :
    e.Unstopped level os := fun earlier o hfront => h earlier o (hfront.trans hos)

theorem Unstopped.concat (h : e.Unstopped level os) (ho : ¬ e.Stops level os o) :
    e.Unstopped level (os ++ [o]) := by
  intro earlier o' hfront
  rcases List.prefix_concat_iff.1 hfront with heq | hfront
  · obtain ⟨rfl, hlast⟩ := List.append_inj' heq rfl
    rwa [List.singleton_inj.1 hlast]
  · exact h earlier o' hfront

/-- As long as no output is the last, each of them has used up a retry. -/
theorem Unstopped.exists_rung (h : e.Unstopped level os) : ∃ rung, e.Stands level os rung ∧
    e.spare rung + os.length = e.spare (e.first level) := by
  induction os using List.reverseRecOn with
  | nil => exact ⟨e.first level, e.stands_first level, rfl⟩
  | append_singleton os o ih =>
      obtain ⟨rung, hrung, hspare⟩ := ih (h.of_prefix (List.prefix_append os [o]))
      obtain ⟨rung', hnext, hrung'⟩ := next_of_not_stops hrung (h os o List.prefix_rfl)
      refine ⟨rung', hrung', ?_⟩
      rw [List.length_append, List.length_singleton, ← hspare, ← spare_of_next hnext]
      omega

theorem Unstopped.length_le (h : e.Unstopped level os) : os.length ≤ e.spare (e.first level) := by
  obtain ⟨rung, -, hspare⟩ := h.exists_rung
  omega

theorem unstopped_map_range {outputs : Nat → Text} {n : Nat}
    (h : ∀ k < n, ¬ e.Stops level ((List.range k).map outputs) (outputs k)) :
    e.Unstopped level ((List.range n).map outputs) := by
  induction n with
  | zero => exact e.unstopped_nil level
  | succ n ih =>
      rw [List.range_succ, List.map_append]
      exact (ih fun k hk => h k (Nat.lt_succ_of_lt hk)).concat (h n (Nat.lt_succ_self n))

/-- **Every sequence of outputs has a last one**, and it comes before the retries are used up. -/
theorem exists_stop (e : Errand) (level : Int) (outputs : Nat → Text) :
    ∃ k, k ≤ e.spare (e.first level) ∧ e.Unstopped level ((List.range k).map outputs) ∧
      e.Stops level ((List.range k).map outputs) (outputs k) := by
  classical
  have hsome : ∃ k, e.Stops level ((List.range k).map outputs) (outputs k) := by
    by_contra hnone
    have hall : e.Unstopped level ((List.range (e.spare (e.first level) + 1)).map outputs) :=
      unstopped_map_range fun k _ hk => hnone ⟨k, hk⟩
    have hlength := hall.length_le
    rw [List.length_map, List.length_range] at hlength
    omega
  have hfirst := unstopped_map_range fun k hk => Nat.find_min hsome hk
  refine ⟨Nat.find hsome, ?_, hfirst, Nat.find_spec hsome⟩
  have hlength := hfirst.length_le
  rwa [List.length_map, List.length_range] at hlength

end Errand

/-- The result of a call that a ladder goes on with at its turn. -/
def Ladder.given (l : Ladder) (x : Signal) : List (Except Failure Text) :=
  match l.course, x with
  | .closing result, .resume => [result]
  | _, _ => []

theorem Ladder.given_of_running {l : Ladder} {g : Generation} (h : l.course = .running g)
    (x : Signal) : l.given x = [] := by
  simp only [given, h]

theorem Ladder.given_of_ended {l : Ladder} {r : Except Failure Text} (h : l.result? = some r)
    (x : Signal) : l.given x = [] := by
  unfold result? at h
  unfold given
  split at h
  · next hcourse => simp only [hcourse]
  · cases h

/-- The results of the calls of a ladder, in their order. -/
def Transcript.results (settings : Settings) (t : Transcript) :
    List Signal → List (Except Failure Text)
  | [] => []
  | x :: xs => t.ladder.given x ++ (t.take settings x).results settings xs

theorem Transcript.results_append (settings : Settings) (t : Transcript) (xs ys : List Signal) :
    t.results settings (xs ++ ys) =
      t.results settings xs ++ (t.after settings xs).results settings ys := by
  induction xs generalizing t with
  | nil => rfl
  | cons x xs ih =>
      show t.ladder.given x ++ (t.take settings x).results settings (xs ++ ys) = _
      rw [ih, ← List.append_assoc]
      rfl

theorem Transcript.results_concat (settings : Settings) (t : Transcript) (xs : List Signal)
    (x : Signal) : t.results settings (xs ++ [x]) =
      t.results settings xs ++ (t.after settings xs).ladder.given x := by
  rw [results_append]
  congr 1
  exact List.append_nil _

/-- Whether the text that was shown so far is void from here on. -/
def Event.isClear : Event → Bool
  | .retryClear => true
  | _ => false

/-- How often a host was told that. -/
def Scene.clears (s : Scene) : Nat := s.told.countP Event.isClear

namespace Scene

variable {s s' : Scene}

@[simp] theorem clears_cancel (s : Scene) : s.cancel.clears = s.clears := by
  rw [clears, clears, told_cancel]

@[simp] theorem clears_release (s : Scene) : s.release.clears = s.clears := by
  rw [clears, clears, told_release]

theorem clears_emit_retryClear (s : Scene) : (s.emit .retryClear).1.clears = s.clears + 1 := by
  rw [clears, told_emit]
  exact List.countP_cons_of_pos rfl

/-- Nothing is taken back while a call is read. -/
theorem clears_of_showing (h : s.Grows Act.isShowing s') : s'.clears = s.clears := by
  obtain ⟨new, -, htold, hnew⟩ := h.adds
  have hnone : (Act.events new).countP Event.isClear = 0 := by
    refine List.countP_eq_zero.2 fun e he hclear => ?_
    obtain ⟨a, ha, hae⟩ := List.mem_filterMap.1 he
    have hshowing := hnew a ha
    cases a with
    | event e' =>
        cases hae
        cases e with
        | retryClear => cases hshowing
        | _ => cases hclear
    | _ => cases hae
  rw [clears, htold, List.countP_append, hnone, Nat.zero_add, clears]

end Scene

theorem Ladder.clears_turn (settings : Settings) (l : Ladder) (s : Scene) (g : Generation) :
    (l.turn settings s g).2.clears = s.clears := by
  unfold turn
  split
  · rfl
  · split
    · rfl
    · exact Scene.clears_release s

theorem Entry.countP_isClear_eq (entries : List Entry) :
    entries.countP isClear = (Entry.events entries).countP Event.isClear := by
  induction entries with
  | nil => rfl
  | cons e es ih =>
      rw [List.countP_cons, ih, ← List.singleton_append, events_append, List.countP_append,
        Nat.add_comm]
      congr 1
      cases e with
      | act a =>
          cases a with
          | event e => cases e <;> rfl
          | _ => rfl
      | _ => rfl

/-- The entries of a transcript show all that was taken back in its course. -/
theorem Transcript.clears_take (settings : Settings) (t : Transcript) (x : Signal) :
    (t.take settings x).scene.clears + t.entries.countP Entry.isClear =
      t.scene.clears + (t.take settings x).entries.countP Entry.isClear := by
  obtain ⟨acts, -, htold, hentries⟩ := exists_entries_take settings t x
  have hadded : (t.ladder.handed x ++ acts.map Entry.act).countP Entry.isClear =
      (Act.events acts).countP Event.isClear := by
    rw [Entry.countP_isClear_eq, Entry.events_append, t.ladder.events_handed, List.nil_append,
      Entry.events_map_act]
  rw [hentries, List.countP_append, hadded, Scene.clears, htold, List.countP_append,
    List.countP_reverse, Scene.clears]
  omega

/-! ### What a ladder comes to -/

namespace Ladder

/-- What a ladder that stops at an output comes to. -/
def resultOf (o : Text) : Except Failure Text :=
  if Text.blank o then .error (.emptyOutput Failure.emptyText) else .ok o

/-- Where a ladder is with these results of its calls, after the outputs `os` that were asked for
again. It may break off in front of a call that is not entered. -/
inductive Climbed (e : Errand) (level : Int) (l : Ladder) (s : Scene) (os : List Text) :
    List (Except Failure Text) → Prop
  | climbs (herrand : l.errand = some e) (hrung : e.Stands level os l.rung)
      (hopen : l.result? = none) : Climbed e level l s os (os.map .ok)
  | breaks {why : Failure} (hresult : l.result? = some (.error why))
      (hbroken : s.cancelled = true ∨ ¬ s.Unfailing) : Climbed e level l s os (os.map .ok)
  | fails {why : Failure} (hresult : l.result? = some (.error why)) :
      Climbed e level l s os (os.map .ok ++ [.error why])
  | stops {o : Text} (hstops : e.Stops level os o) (hresult : l.result? = some (resultOf o)) :
      Climbed e level l s os (os.map .ok ++ [.ok o])

variable {e : Errand} {level : Int} {l : Ladder} {s s' : Scene} {os : List Text}
  {rs : List (Except Failure Text)} {x : Signal}

theorem climbed_enter (herrand : l.errand = some e) (hrung : e.Stands level os l.rung) (s : Scene) :
    (l.enter s).Climbed e level s os (os.map .ok) := by
  unfold enter
  split
  · next hcancelled => exact .breaks rfl (Or.inl hcancelled)
  · exact .climbs herrand hrung rfl

theorem Climbed.of_result? {r : Except Failure Text} (h : l.Climbed e level s os rs)
    (hresult : l.result? = some r) (hcancelled : s.cancelled = true → s'.cancelled = true)
    (hhost : s'.host = s.host) : l.Climbed e level s' os rs := by
  cases h with
  | climbs _ _ hopen =>
      rw [hopen] at hresult
      cases hresult
  | breaks hresult hbroken =>
      refine .breaks hresult (hbroken.imp hcancelled fun hfailing hunfailing => hfailing ?_)
      exact Scene.unfailing_congr hunfailing hhost.symm
  | fails hresult => exact .fails hresult
  | stops hstops hresult => exact .stops hstops hresult

theorem step_of_given (settings : Settings) (s : Scene) (hrunning : ∀ g, l.course ≠ .running g)
    (hgiven : l.given x = []) :
    (l.step settings s x).1 = l ∧ (l.step settings s x).2.clears = s.clears := by
  unfold given at hgiven
  unfold step
  cases hcourse : l.course with
  | running g => exact absurd hcourse (hrunning g)
  | closing result =>
      cases x with
      | resume =>
          rw [hcourse] at hgiven
          cases hgiven
      | cancel => exact ⟨rfl, s.clears_cancel⟩
      | _ => exact ⟨rfl, rfl⟩
  | ended result =>
      cases x with
      | cancel => exact ⟨rfl, s.clears_cancel⟩
      | _ => exact ⟨rfl, rfl⟩

theorem turn_of_running {g : Generation} (settings : Settings) (s : Scene)
    (hcourse : l.course = .running g) : (l.turn settings s g).1.errand = l.errand ∧
      (l.turn settings s g).1.rung = l.rung ∧ (l.turn settings s g).1.result? = none := by
  unfold turn
  split
  · exact ⟨rfl, rfl, rfl⟩
  · split
    · exact ⟨rfl, rfl, by rw [result?, hcourse]⟩
    · exact ⟨rfl, rfl, rfl⟩

/-- A ladder goes on with the result of a call: it fails, it stops, or it asks again. -/
theorem climbed_proceed (hnone : e.Unstopped level os) (herrand : l.errand = some e)
    (hrung : e.Stands level os l.rung) (s : Scene) (result : Except Failure Text) :
    ∃ os', e.Unstopped level os' ∧
      (l.proceed s result).2.clears + os.length = s.clears + os'.length ∧
      (l.proceed s result).1.Climbed e level (l.proceed s result).2 os' (os.map .ok ++ [result]) := by
  cases result with
  | error why => exact ⟨os, hnone, rfl, .fails rfl⟩
  | ok o =>
      by_cases hstops : e.Stops level os o
      · have hproceed : l.proceed s (.ok o) = (l.finish (resultOf o), s) := by
          simp only [proceed, herrand, Errand.next_of_stops hrung hstops, resultOf]
          cases Text.blank o <;> rfl
        rw [hproceed]
        exact ⟨os, hnone, rfl, .stops hstops rfl⟩
      · obtain ⟨rung', hnext, hrung'⟩ := Errand.next_of_not_stops hrung hstops
        have hclears := s.clears_emit_retryClear
        have hhost := s.host_emit .retryClear
        have hresults : os.map Except.ok ++ [.ok o] =
            ((os ++ [o]).map .ok : List (Except Failure Text)) := by
          rw [List.map_append]
          rfl
        simp only [proceed, herrand, hnext]
        refine ⟨os ++ [o], hnone.concat hstops, ?_⟩
        rw [hresults, List.length_append, List.length_singleton]
        split
        · next s' why hemit =>
            rw [hemit] at hclears hhost
            refine ⟨by simp only [hclears]; omega, .breaks rfl (Or.inr fun hunfailing => ?_)⟩
            have hpass := (Scene.unfailing_congr hunfailing hhost.symm).emit_eq .retryClear
            rw [hemit] at hpass
            cases hpass
        · next s' hemit =>
            rw [hemit] at hclears
            exact ⟨by simp only [hclears]; omega, climbed_enter rfl hrung' s'⟩

/-- Within a call nothing is taken back. -/
theorem climbed_running {g : Generation} (settings : Settings) (hnone : e.Unstopped level os)
    (herrand : l.errand = some e) (hrung : e.Stands level os l.rung)
    (hcourse : l.course = .running g) (s : Scene) (x : Signal) :
    ∃ os', e.Unstopped level os' ∧
      (l.step settings s x).2.clears + os.length = s.clears + os'.length ∧
      (l.step settings s x).1.Climbed e level (l.step settings s x).2 os'
        (os.map .ok ++ l.given x) := by
  rw [given_of_running hcourse, List.append_nil]
  by_cases hx : x = .resume
  · subst hx
    have hstep : l.step settings s .resume = l.turn settings s g := by
      simp only [Ladder.step, hcourse]
    obtain ⟨herrand', hrung', hopen'⟩ := turn_of_running settings s hcourse
    rw [hstep, clears_turn]
    exact ⟨os, hnone, rfl, .climbs (herrand'.trans herrand) (hrung' ▸ hrung) hopen'⟩
  · have hclears := Scene.clears_of_showing (Generation.grows_signal settings g s x)
    rw [step_of_running settings s hcourse hx]
    exact ⟨os, hnone, by simp only [hclears], .climbs herrand hrung rfl⟩

theorem climbed_closing {result : Except Failure Text} (settings : Settings)
    (hnone : e.Unstopped level os) (herrand : l.errand = some e) (hrung : e.Stands level os l.rung)
    (hcourse : l.course = .closing result) (s : Scene) (x : Signal) :
    ∃ os', e.Unstopped level os' ∧
      (l.step settings s x).2.clears + os.length = s.clears + os'.length ∧
      (l.step settings s x).1.Climbed e level (l.step settings s x).2 os'
        (os.map .ok ++ l.given x) := by
  by_cases hx : x = .resume
  · subst hx
    have hstep : l.step settings s .resume = l.proceed s result := by
      simp only [Ladder.step, hcourse]
    have hgiven : l.given .resume = [result] := by simp only [given, hcourse]
    rw [hstep, hgiven]
    exact climbed_proceed hnone herrand hrung s result
  · have hgiven : l.given x = [] := by
      unfold given
      split
      · exact absurd rfl hx
      · rfl
    have hopen : l.result? = none := by rw [result?, hcourse]
    obtain ⟨hladder, hclears⟩ := step_of_given settings s
      (fun g hg => by rw [hcourse] at hg; cases hg) hgiven
    rw [hladder, hclears, hgiven, List.append_nil]
    exact ⟨os, hnone, rfl, .climbs herrand hrung hopen⟩

/-- A ladder that came to its end stays as it is. -/
theorem Climbed.step_of_result? {r : Except Failure Text} (settings : Settings)
    (h : l.Climbed e level s os rs) (hresult : l.result? = some r) (x : Signal) :
    (l.step settings s x).2.clears = s.clears ∧
      (l.step settings s x).1.Climbed e level (l.step settings s x).2 os (rs ++ l.given x) := by
  have hgiven := given_of_ended hresult x
  have hgrows := grows_step settings l s x
  have hrunning : ∀ g, l.course ≠ .running g := by
    intro g hcourse
    rw [result?, hcourse] at hresult
    cases hresult
  obtain ⟨hladder, hclears⟩ := step_of_given settings s hrunning hgiven
  rw [hladder, hgiven, List.append_nil]
  exact ⟨hclears, h.of_result? hresult hgrows.cancelled hgrows.host_eq⟩

/-- **One step preserves it**, and it takes back what was shown exactly where it asks again. -/
theorem Climbed.step (settings : Settings) (h : l.Climbed e level s os rs)
    (hnone : e.Unstopped level os) (x : Signal) :
    ∃ os', e.Unstopped level os' ∧
      (l.step settings s x).2.clears + os.length = s.clears + os'.length ∧
      (l.step settings s x).1.Climbed e level (l.step settings s x).2 os' (rs ++ l.given x) := by
  cases hresult : l.result? with
  | some r =>
      obtain ⟨hclears, hclimbed⟩ := h.step_of_result? settings hresult x
      exact ⟨os, hnone, by rw [hclears], hclimbed⟩
  | none =>
      cases h with
      | climbs herrand hrung _ =>
          cases hcourse : l.course with
          | running g => exact climbed_running settings hnone herrand hrung hcourse s x
          | closing result => exact climbed_closing settings hnone herrand hrung hcourse s x
          | ended r =>
              rw [result?, hcourse] at hresult
              cases hresult
      | breaks hover _ =>
          rw [hresult] at hover
          cases hover
      | fails hover =>
          rw [hresult] at hover
          cases hover
      | stops _ hover =>
          rw [hresult] at hover
          cases hover

/-- After outputs of which the last one stops a ladder, those before it were asked for again. -/
theorem Climbed.length_eq {outputs : List Text} {o : Text}
    (h : l.Climbed e level s os ((outputs ++ [o]).map .ok)) (hnone : e.Unstopped level os)
    (hresult : l.result? = some (resultOf o)) (hstops : e.Stops level outputs o) :
    os.length = outputs.length := by
  generalize hrs : ((outputs ++ [o]).map Except.ok : List (Except Failure Text)) = rs at h
  cases h with
  | climbs _ _ hopen =>
      rw [hopen] at hresult
      cases hresult
  | breaks _ _ =>
      have hos := List.map_injective_iff.2 (fun _ _ => Except.ok.inj) hrs
      exact absurd hstops (hnone outputs o (hos ▸ List.prefix_rfl))
  | fails _ =>
      rw [List.map_append] at hrs
      cases List.singleton_inj.1 (List.append_inj' hrs rfl).2
  | stops _ _ =>
      have hlength := congrArg List.length hrs
      simp only [List.length_map, List.length_append, List.length_singleton] at hlength
      omega

end Ladder

namespace Transcript

theorem after_append (settings : Settings) (t : Transcript) (xs ys : List Signal) :
    t.after settings (xs ++ ys) = (t.after settings xs).after settings ys := List.foldl_append

theorem after_concat (settings : Settings) (t : Transcript) (xs : List Signal) (x : Signal) :
    t.after settings (xs ++ [x]) = (t.after settings xs).take settings x :=
  after_append settings t xs [x]

theorem climbed_after (settings : Settings) (e : Errand) (level : Int) (options : SamplingOptions)
    (scene : Scene) (xs : List Signal) :
    let first := start (some e) (e.first level) options scene
    let t := first.after settings xs
    ∃ os, e.Unstopped level os ∧ t.entries.countP Entry.isClear = os.length ∧
      t.ladder.Climbed e level t.scene os (first.results settings xs) := by
  intro first t
  -- the host may have been told such events before the ladder was begun
  have hall : ∃ os, e.Unstopped level os ∧ t.scene.clears = scene.clears + os.length ∧
      t.scene.clears = scene.clears + t.entries.countP Entry.isClear ∧
      t.ladder.Climbed e level t.scene os (first.results settings xs) := by
    induction xs using List.reverseRecOn with
    | nil => exact ⟨[], e.unstopped_nil level, rfl, rfl,
        Ladder.climbed_enter rfl (e.stands_first level) scene⟩
    | append_singleton xs x ih =>
        obtain ⟨os, hnone, hclears, hentries, hclimbed⟩ := ih
        obtain ⟨os', hnone', hcount, hclimbed'⟩ := hclimbed.step settings hnone x
        have htake := clears_take settings (first.after settings xs) x
        simp only [t, after_concat, results_concat]
        rw [scene_take] at htake ⊢
        exact ⟨os', hnone', by omega, by omega, hclimbed'⟩
  obtain ⟨os, hnone, hclears, hentries, hclimbed⟩ := hall
  exact ⟨os, hnone, by omega, hclimbed⟩

/-- What reaches a ladder by a call that answers in these pieces: the engine's signals, and the turns
of the ladder by which it calls, decides the call, and goes on. -/
def answering (pieces : List Text) : List Signal :=
  .resume :: .opened :: (Talk.spoken pieces ++ [.resume, .resume])

/-- A ladder is in a call in which so much of the answer has still to be said. -/
structure Calls (l : Ladder) (prompt answer : Text) (reader : Reader) (rest : List Text)
    (t : Transcript) : Prop where
  calm : t.scene.Calm
  running : ∃ g, t.ladder = { l with course := .running g } ∧ g.Saying prompt answer reader rest

section Calls

variable {settings : Settings} {l : Ladder} {prompt answer : Text} {reader reader' : Reader}
  {rest rest' : List Text} {t : Transcript} {x : Signal}

theorem Calls.given (h : t.Calls l prompt answer reader rest) (x : Signal) :
    t.ladder.given x = [] := by
  obtain ⟨g, hladder, -⟩ := h.running
  exact Ladder.given_of_running (congrArg Ladder.course hladder) x

theorem Calls.signal (h : t.Calls l prompt answer reader rest) (hx : x ≠ .resume)
    (hsignal : ∀ (g : Generation) (s : Scene), s.Calm → g.Saying prompt answer reader rest →
      ∃ g' s', g.signal settings s x = (g', s') ∧ s'.Calm ∧
        g'.Saying prompt answer reader' rest') :
    (t.take settings x).Calls l prompt answer reader' rest' := by
  obtain ⟨hcalm, g, hladder, hsaying⟩ := h
  obtain ⟨g', s', heq, hcalm', hsaying'⟩ := hsignal g t.scene hcalm hsaying
  have hstep : t.ladder.step settings t.scene x = ({ l with course := .running g' }, s') := by
    rw [hladder, Ladder.step_of_running settings t.scene rfl hx, heq]
  constructor
  · rwa [scene_take, hstep]
  · exact ⟨g', by rw [ladder_take, hstep], hsaying'⟩

theorem Calls.call (h : t.Calls l prompt answer .entered rest) :
    (t.take settings .resume).Calls l prompt answer .opening rest := by
  obtain ⟨hcalm, g, hladder, hsaying⟩ := h
  obtain ⟨g', s', hturn, hcalm', hsaying'⟩ :=
    @Ladder.turn_of_saying_entered { l with course := .running g } _ _ _ _ _ settings hsaying hcalm
  have hstep : t.ladder.step settings t.scene .resume = ({ l with course := .running g' }, s') := by
    rw [hladder]
    exact hturn
  constructor
  · rwa [scene_take, hstep]
  · exact ⟨g', by rw [ladder_take, hstep], hsaying'⟩

theorem Calls.decide (settings : Settings) (h : t.Calls l prompt answer (.stopped none) []) :
    (t.take settings .resume).ladder = { l with course := .closing (.ok answer) } ∧
      (t.take settings .resume).scene.Calm := by
  obtain ⟨hcalm, g, hladder, hsaying⟩ := h
  have hstep : t.ladder.step settings t.scene .resume =
      ({ l with course := .closing (.ok answer) }, t.scene.release) := by
    rw [hladder]
    exact @Ladder.turn_of_saying_stopped { l with course := .running g } _ _ _ _ settings hsaying hcalm
  rw [ladder_take, scene_take, hstep]
  exact ⟨rfl, hcalm.release⟩

theorem Calls.say (h : t.Calls l prompt answer .streaming rest) (hyield : settings.yieldEvery ≠ 0)
    (htime : settings.leavesNoTime = false) :
    (t.after settings (rest.map fun p => .token (.text p))).Calls l prompt answer .streaming [] ∧
      t.results settings (rest.map fun p => .token (.text p)) = [] := by
  induction rest generalizing t with
  | nil => exact ⟨h, rfl⟩
  | cons p rest ih =>
      have hsaid := h.signal (x := .token (.text p)) nofun fun g s hs hg =>
        hg.signal_token hs hyield htime
      obtain ⟨hall, hresults⟩ := ih hsaid
      refine ⟨hall, ?_⟩
      show t.ladder.given _ ++ (t.take settings _).results settings _ = []
      rw [h.given, hresults, List.append_nil]

/-- A call that is answered comes to the answer, and the ladder has its turn. -/
theorem Calls.answered (h : t.Calls l prompt answer .entered rest)
    (hyield : settings.yieldEvery ≠ 0) (htime : settings.leavesNoTime = false) : ∃ t' : Transcript,
      t'.ladder = { l with course := .closing (.ok answer) } ∧ t'.scene.Calm ∧
      t.after settings (answering rest) = t'.take settings .resume ∧
      t.results settings (answering rest) = [.ok answer] := by
  let called := t.take settings .resume
  let opened := called.take settings .opened
  let said := opened.after settings (rest.map fun p => .token (.text p))
  let finished := said.take settings .ended
  let settled := finished.take settings .settled
  have hcalled : called.Calls l prompt answer .opening rest := h.call
  have hopened : opened.Calls l prompt answer .streaming rest :=
    hcalled.signal nofun fun g s hs hg => hg.signal_opened settings hs
  obtain ⟨hsaid, hnothing⟩ := hopened.say hyield htime
  have hfinished : finished.Calls l prompt answer .settling [] :=
    hsaid.signal nofun fun g s hs hg => hg.signal_ended settings hs
  have hsettled : settled.Calls l prompt answer (.stopped none) [] :=
    hfinished.signal nofun fun g s hs hg => hg.signal_settled settings hs
  obtain ⟨hladder, hcalm⟩ := hsettled.decide settings
  have hgiven : (settled.take settings .resume).ladder.given .resume = [.ok answer] := by
    rw [hladder]
    rfl
  refine ⟨settled.take settings .resume, hladder, hcalm, ?_, ?_⟩
  · show opened.after settings (Talk.spoken rest ++ [.resume, .resume]) = _
    rw [Talk.spoken, List.append_assoc, after_append]
    rfl
  · show t.ladder.given .resume ++ (called.ladder.given .opened ++
      opened.results settings (Talk.spoken rest ++ [.resume, .resume])) = _
    rw [h.given, hcalled.given, Talk.spoken, List.append_assoc, results_append, hnothing]
    show said.ladder.given .ended ++ (finished.ladder.given .settled ++ (settled.ladder.given .resume ++
      ((settled.take settings .resume).ladder.given .resume ++ []))) = _
    rw [hsaid.given, hfinished.given, hsettled.given, hgiven]
    rfl

end Calls

/-! ### Every ladder -/

/-- The ladder that has entered the call of a rung. -/
def entered (e : Errand) (rung : Rung) (options : SamplingOptions) : Ladder :=
  ⟨some e, rung, options, .running { prompt := rung.prompt, options := options }⟩

section Answers

variable {settings : Settings} {e : Errand} {level : Int} {options : SamplingOptions}
  {scene : Scene} {t : Transcript} {rung rung' : Rung} {pieces : List Text} {o : Text}

/-- The call of a rung is answered, and the ladder goes on with the answer. -/
theorem exists_after_answering (hladder : t.ladder = entered e rung options)
    (hcalm : t.scene.Calm) (hyield : settings.yieldEvery ≠ 0)
    (htime : settings.leavesNoTime = false) (hpieces : pieces.flatten = o) :
    ∃ s, s.Calm ∧ t.results settings (answering pieces) = [.ok o] ∧
      ((t.after settings (answering pieces)).ladder, (t.after settings (answering pieces)).scene) =
        Ladder.proceed ⟨some e, rung, options, .closing (.ok o)⟩ s (.ok o) := by
  have hcalls : t.Calls (entered e rung options) rung.prompt o .entered pieces :=
    ⟨hcalm, _, hladder, rfl, rfl, rfl, hpieces, fun _ h => absurd h List.not_mem_nil⟩
  obtain ⟨t', hclosing, hcalm', hafter, hresults⟩ := hcalls.answered hyield htime
  refine ⟨t'.scene, hcalm', hresults, ?_⟩
  rw [hafter, ladder_take, scene_take, hclosing]
  rfl

theorem after_answering_of_retry (hladder : t.ladder = entered e rung options)
    (hcalm : t.scene.Calm) (hyield : settings.yieldEvery ≠ 0)
    (htime : settings.leavesNoTime = false) (hpieces : pieces.flatten = o)
    (hnext : e.next rung o = .retry rung') :
    t.results settings (answering pieces) = [.ok o] ∧
      (t.after settings (answering pieces)).ladder = entered e rung' options ∧
      (t.after settings (answering pieces)).scene.Calm := by
  obtain ⟨s, hs, hresults, hproceed⟩ := exists_after_answering hladder hcalm hyield htime hpieces
  have htold := hs.tell .retryClear
  have hemit := hs.emit_eq .retryClear
  simp only [Scene.tell, hemit] at htold
  simp only [Ladder.proceed, hnext, hemit] at hproceed
  rw [Ladder.enter, if_neg (by simp [htold.going])] at hproceed
  obtain ⟨hladder', hscene⟩ := Prod.mk.inj hproceed
  exact ⟨hresults, hladder', hscene ▸ htold⟩

theorem after_answering_of_stops (hladder : t.ladder = entered e rung options)
    (hcalm : t.scene.Calm) (hyield : settings.yieldEvery ≠ 0)
    (htime : settings.leavesNoTime = false) (hpieces : pieces.flatten = o) {os : List Text}
    (hrung : e.Stands level os rung) (hstops : e.Stops level os o) :
    t.results settings (answering pieces) = [.ok o] ∧
      (t.after settings (answering pieces)).ladder.result? = some (Ladder.resultOf o) := by
  obtain ⟨s, -, hresults, hproceed⟩ := exists_after_answering hladder hcalm hyield htime hpieces
  refine ⟨hresults, ?_⟩
  have hladder' : (t.after settings (answering pieces)).ladder = _ := congrArg Prod.fst hproceed
  rw [hladder']
  simp only [Ladder.proceed, Errand.next_of_stops hrung hstops, Ladder.resultOf]
  cases Text.blank o <;> rfl

/-- As long as no answer is the last, the ladder asks again. -/
theorem after_answers (hcalm : scene.Calm) (hyield : settings.yieldEvery ≠ 0)
    (htime : settings.leavesNoTime = false) (answers : Nat → List Text) {n : Nat}
    (hnone : e.Unstopped level ((List.range n).map fun i => (answers i).flatten)) :
    let first := start (some e) (e.first level) options scene
    let xs := (List.range n).flatMap fun i => answering (answers i)
    first.results settings xs = (List.range n).map (fun i => .ok (answers i).flatten) ∧
    ∃ rung, e.Stands level ((List.range n).map fun i => (answers i).flatten) rung ∧
      (first.after settings xs).ladder = entered e rung options ∧
      (first.after settings xs).scene.Calm := by
  intro first xs
  induction n with
  | zero =>
      exact ⟨rfl, e.first level, e.stands_first level, Ladder.start_of_calm hcalm _ _ _, hcalm⟩
  | succ n ih =>
      simp only [xs, List.range_succ, List.map_append, List.flatMap_append, List.map_singleton,
        List.flatMap_singleton] at hnone ⊢
      obtain ⟨hresults, rung, hrung, hladder, hcalm'⟩ :=
        ih (hnone.of_prefix (List.prefix_append _ _))
      obtain ⟨rung', hnext, hrung'⟩ :=
        Errand.next_of_not_stops hrung (hnone _ _ List.prefix_rfl)
      obtain ⟨hanswer, hladder', hcalm''⟩ :=
        after_answering_of_retry hladder hcalm' hyield htime rfl hnext
      rw [results_append, after_append, hresults, hanswer]
      exact ⟨rfl, rung', hrung', hladder', hcalm''⟩

end Answers

/-- **A ladder stops at the first output that is the last one**, and comes to it, or to the failure
of empty output where it is blank; how many outputs come before that is bounded by the levels above
the first one and the allowance for cut-off output together, and in front of each retry the shown
text is taken back once.

Whatever signals come: each output so far but the last was asked for again, and was not the last by
the levels and the allowance. Nothing else ends a ladder but a call that fails, a cancellation in
front of a call, or a host that fails. And every sequence of answers has such a last output, at which
the ladder ends where nobody cancels and the calls can be answered. -/
theorem ladder_stops (settings : Settings) (e : Errand) (level : Int) (options : SamplingOptions)
    (scene : Scene) :
    let first := start (some e) (e.first level) options scene
    (∀ xs : List Signal,
      let t := first.after settings xs
      let results := first.results settings xs
      ∃ os : List Text, e.Unstopped level os ∧ os.length ≤ (2 - level).toNat + e.allowance ∧
        t.entries.countP Entry.isClear = os.length ∧
        ((∃ o, results = os.map .ok ++ [.ok o] ∧ e.Stops level os o ∧
            t.ladder.result? = some (Ladder.resultOf o)) ∨
          (∃ why, results = os.map .ok ++ [.error why] ∧ t.ladder.result? = some (.error why)) ∨
          (results = os.map .ok ∧ (t.ladder.result? = none ∨
            ∃ why, t.ladder.result? = some (.error why) ∧
              (t.scene.cancelled = true ∨ ¬ t.scene.Unfailing))))) ∧
    (∀ answers : Nat → List Text,
      let outputs (i : Nat) := (answers i).flatten
      ∃ k, k ≤ (2 - level).toNat + e.allowance ∧
        e.Unstopped level ((List.range k).map outputs) ∧
        e.Stops level ((List.range k).map outputs) (outputs k) ∧
        (scene.Calm → settings.yieldEvery ≠ 0 → settings.leavesNoTime = false →
          let xs := (List.range (k + 1)).flatMap fun i => answering (answers i)
          let t := first.after settings xs
          first.results settings xs = (List.range (k + 1)).map (fun i => .ok (outputs i)) ∧
            t.ladder.result? = some (Ladder.resultOf (outputs k)) ∧
            t.entries.countP Entry.isClear = k)) := by
  intro first
  constructor
  · intro xs t results
    obtain ⟨os, hnone, hclears, hclimbed⟩ := climbed_after settings e level options scene xs
    refine ⟨os, hnone, Nat.le_trans hnone.length_le (e.spare_first_le level), hclears, ?_⟩
    generalize hresults : first.results settings xs = rs at hclimbed
    simp only [results, hresults]
    cases hclimbed with
    | climbs _ _ hopen => exact Or.inr (Or.inr ⟨rfl, Or.inl hopen⟩)
    | breaks hresult hbroken => exact Or.inr (Or.inr ⟨rfl, Or.inr ⟨_, hresult, hbroken⟩⟩)
    | fails hresult => exact Or.inr (Or.inl ⟨_, rfl, hresult⟩)
    | stops hstops hresult => exact Or.inl ⟨_, rfl, hstops, hresult⟩
  · intro answers outputs
    obtain ⟨k, hk, hnone, hstops⟩ := e.exists_stop level outputs
    refine ⟨k, Nat.le_trans hk (e.spare_first_le level), hnone, hstops, fun hcalm hyield htime => ?_⟩
    intro xs t
    obtain ⟨hresults, rung, hrung, hladder, hcalm'⟩ :=
      after_answers hcalm hyield htime answers hnone
    obtain ⟨hanswer, hresult⟩ :=
      after_answering_of_stops hladder hcalm' hyield htime rfl hrung hstops
    have hall : first.results settings xs = ((List.range k).map outputs ++ [outputs k]).map .ok := by
      simp only [xs, List.range_succ, List.flatMap_append, List.flatMap_singleton, results_append]
      rw [hresults, hanswer, List.map_append, List.map_map]
      rfl
    have hover : t.ladder.result? = some (Ladder.resultOf (outputs k)) := by
      simp only [t, xs, List.range_succ, List.flatMap_append, List.flatMap_singleton, after_append]
      exact hresult
    refine ⟨?_, hover, ?_⟩
    · rw [hall, List.range_succ, ← List.map_singleton, ← List.map_append, List.map_map]
      rfl
    · obtain ⟨os, hnone', hclears, hclimbed⟩ := climbed_after settings e level options scene xs
      rw [hall] at hclimbed
      have hlength := hclimbed.length_eq hnone' hover hstops
      rw [List.length_map, List.length_range] at hlength
      exact hclears.trans hlength

/-- A cut-off output and a blank one are asked for again, and the next one is taken. -/
theorem ladder_stops_at_third :
    let e : Errand := {
      code := "a = 1".toList
      report := Report.ofText "a = 1".toList "python".toList Chunk.defaultSize
      focus := .performance
      maxRetries := 1 }
    let answers (i : Nat) : List Text :=
      [["f(".toList], [], ["a".toList, " = 1".toList], ["b(".toList]].getD i []
    let scene : Scene := { host := fun _ => .pass }
    let first := start (some e) (e.first 0) ⟨100, .finite 0, none⟩ scene
    let xs := (List.range 3).flatMap fun i => answering (answers i)
    first.results {} xs = [.ok "f(".toList, .ok [], .ok "a = 1".toList] ∧
      (first.after {} xs).ladder.result? = some (.ok "a = 1".toList) ∧
      (first.after {} xs).entries.countP Entry.isClear = 2 := by
  intro e answers scene first xs
  have hcalm : scene.Calm := ⟨rfl, fun _ => rfl⟩
  obtain ⟨k, hk, hnone, hstops, hends⟩ := (ladder_stops {} e 0 ⟨100, .finite 0, none⟩ scene).2 answers
  have hthird : k = 2 := by
    have hbound : k ≤ 3 := hk
    obtain rfl | rfl | rfl | rfl : k = 0 ∨ k = 1 ∨ k = 2 ∨ k = 3 := by omega
    · exact absurd hstops (by decide)
    · exact absurd hstops (by decide)
    · rfl
    · exact absurd (by decide) (hnone ["f(".toList, []] "a = 1".toList (by decide))
  subst hthird
  exact hends hcalm (by decide) (by decide)

end Transcript
end Refinery
