import Refinery.Proofs.Session.History
import Refinery.Proofs.Session.Past

/-!
Requests at a desk do not see each other. What is shown of a request that was admitted is what its
run does alone with the signals that reach it, whatever came before it. A request that is turned away
leaves no trace in any other, unless its host cancels the one on its way.
-/

namespace Refinery

/-- The signals of a move for the request on its way. A host that is turned away can cancel it. -/
def Move.reaching : Move → List Signal
  | .signal x => [x]
  | .submit _ _ _ host => match host [.error Desk.busyText] with
    | .cancel => [.cancel]
    | _ => []

theorem Move.not_mem_tickets_cons {t : Nat} {m : Move} {ms : List Move}
    (h : t ∉ Move.tickets (m :: ms)) : m.ticket? ≠ some t ∧ t ∉ Move.tickets ms := by
  unfold Move.tickets at h ⊢
  rw [List.mem_filterMap] at h ⊢
  refine ⟨fun heq => h ⟨m, List.mem_cons_self, heq⟩, ?_⟩
  rintro ⟨m', hm', heq⟩
  exact h ⟨m', List.mem_cons_of_mem m hm', heq⟩

namespace Run

/-- Cancellations reach a run until it is over. -/
def Attended (r : Run) : Prop := r.scene.admitted = !r.isOver

theorem isOver_of_place {r : Run} {job : Job} (h : r.control.place = .on job) :
    r.isOver = false := by
  rw [← Bool.not_eq_true, isOver_iff]
  rintro ⟨o, ho⟩
  rw [h] at ho
  cases ho

theorem attended_fail (r : Run) (why : Failure) : (r.fail why).Attended := rfl

theorem attended_succeed (r : Run) (o : Outcome) : (r.succeed o).Attended := by
  unfold succeed
  split
  · exact attended_fail r _
  · exact Scene.admitted_emit ((r.phase .done).dismiss.unbind).scene (.done o)

theorem Quiet.attended {r r' : Run} (h : Quiet r r') (hr : r.scene.admitted = true) {job : Job}
    (hplace : r'.control.place = .on job) : r'.Attended := by
  rw [Attended, h.scene.admitted_eq, hr, isOver_of_place hplace]
  rfl

/-- Nothing is done any more by a run that is over. -/
theorem step_of_isOver {r : Run} (h : r.Attended) (hover : r.isOver = true) (x : Signal) :
    r.step x = r := by
  have hadmitted : r.scene.admitted = false := by rw [h, hover]; rfl
  have hcancel : r.scene.cancel = r.scene := by
    rw [Scene.cancel, if_neg (by simp [hadmitted])]
  cases hcontrol : r.control with
  | ended o =>
      cases x with
      | cancel =>
          simp only [step, hcontrol, hcancel]
          rw [← hcontrol]
      | _ => simp only [step, hcontrol]
  | _ =>
      rw [isOver, hcontrol] at hover
      cases hover

theorem after_of_isOver {r : Run} (h : r.Attended) (hover : r.isOver = true) (xs : List Signal) :
    r.after xs = r := by
  induction xs with
  | nil => rfl
  | cons x xs ih => rw [after_cons, step_of_isOver h hover, ih]

theorem Attended.step {r : Run} (h : r.Attended) (x : Signal) : (r.step x).Attended := by
  cases hover : r.isOver with
  | true => rwa [step_of_isOver h hover]
  | false =>
      have hadmitted : r.scene.admitted = true := by rw [h, hover]; rfl
      have hadvance := advance_step r x
      generalize r.step x = r' at hadvance
      cases hadvance with
      | stays quiet place =>
          cases hplace : r.control.place with
          | on job => exact quiet.attended hadmitted (place.trans hplace)
          | ended o =>
              have hover' : r.isOver = true := isOver_iff.2 ⟨o, hplace⟩
              rw [hover] at hover'
              cases hover'
      | fails _ _ why => exact attended_fail _ why
      | takesFirst _ _ _ => exact attended_succeed _ _
      | asksAgain quiet _ _ place' => exact quiet.attended hadmitted place'
      | keepsFirst _ _ => exact attended_succeed _ _
      | takesSecond _ _ _ => exact attended_succeed _ _
      | goesOn quiet _ _ _ _ place' => exact quiet.attended hadmitted place'
      | joins _ _ _ _ _ => exact attended_succeed _ _

theorem attended_begin (settings : Settings) (name : Text) (request : Request) (host : Host) :
    (begin settings name request host).Attended := by
  have hopening := opening_begin settings name request host
  generalize begin settings name request host = r at hopening
  cases hopening with
  | fails _ why => exact attended_fail _ why
  | whole quiet place => exact quiet.attended rfl place
  | parts quiet _ place => exact quiet.attended rfl place

end Run

namespace Desk

theorem settings_settle (d : Desk) (t : Nat) (r : Run) :
    (d.settle t r).1.settings = d.settings := by
  unfold settle
  simp only
  split <;> rfl

theorem settings_step (d : Desk) (x : Signal) : (d.step x).1.settings = d.settings := by
  unfold step
  split
  · rfl
  · exact settings_settle d _ _

end Desk

namespace History

/-- What the request under a ticket came to. -/
def resultsOf (h : History) (ticket : Nat) : List (Option Outcome) :=
  (h.desk.results.filter (·.1 == ticket)).map (·.2)

theorem Sound.resultsOf_eq_nil {used : List Nat} {h : History} {t : Nat} (hs : Sound used h)
    (ht : t ∉ used) : h.resultsOf t = [] := by
  rw [resultsOf, List.map_eq_nil_iff, List.filter_eq_nil_iff]
  rintro ⟨u, result⟩ hmem hticket
  rw [beq_iff_eq] at hticket
  exact hs.not_mem_results ht result (hticket ▸ hmem)

/-- The desk notes what the run under a ticket has done. -/
def settled (h : History) (u : Nat) (r : Run) : History :=
  ⟨(h.desk.settle u r).1, h.deeds ++ (h.desk.settle u r).2⟩

variable {h h' : History} {t u : Nat} {r : Run}

theorem actsOf_settled_self (h : History) (t : Nat) (r : Run) :
    (h.settled t r).actsOf t = h.actsOf t ++ r.scene.acts.reverse := by
  rw [actsOf, settled, Deed.actsOf_append, Desk.settle_deeds, Deed.actsOf_self, actsOf]

theorem actsOf_settled_of_ne (h : History) (r : Run) (hne : u ≠ t) :
    (h.settled u r).actsOf t = h.actsOf t := by
  rw [actsOf, settled, Deed.actsOf_append, Desk.settle_deeds, Deed.actsOf_of_ne hne,
    List.append_nil, actsOf]

theorem resultsOf_settled (h : History) (t u : Nat) (r : Run) :
    (h.settled u r).resultsOf t =
      (if r.isOver && u == t then [r.outcome?] else []) ++ h.resultsOf t := by
  unfold resultsOf settled
  cases hover : r.isOver with
  | true =>
      rw [(Desk.settle_of_isOver h.desk u hover).2, List.filter_cons]
      cases u == t <;> simp
  | false =>
      rw [(Desk.settle_of_not_isOver h.desk u hover).2]
      rfl

theorem next_signal_of_none (hactive : h.desk.active = none) (x : Signal) :
    h.next (.signal x) = h := by
  simp only [next, Desk.step, hactive, List.append_nil]

theorem next_signal_of_some (hactive : h.desk.active = some (u, r)) (x : Signal) :
    h.next (.signal x) = h.settled u (r.step x) := by
  simp only [next, Desk.step, hactive, settled]

theorem next_submit_of_free (hfree : h.desk.isBusy = false) (name : Text) (request : Request)
    (host : Host) : h.next (.submit u name request host) =
      h.settled u (Run.begin h.desk.settings name request host) := by
  simp only [next, Desk.submit, hfree, Bool.false_eq_true, if_false, settled]

/-- A request that is turned away is told so; what its host does then comes after that. -/
theorem exists_next_submit (hbusy : h.desk.isBusy = true) (name : Text) (request : Request)
    (host : Host) :
    ∃ d new, h.after ((Move.submit u name request host).reaching.map .signal) =
        ⟨d, h.deeds ++ new⟩ ∧
      h.next (.submit u name request host) = ⟨{ d with results := (u, none) :: d.results },
        h.deeds ++ ⟨u, .event (.error Desk.busyText)⟩ :: new⟩ := by
  have hnext : h.next (.submit u name request host) =
      ⟨(h.desk.turnAway u host).1, h.deeds ++ (h.desk.turnAway u host).2⟩ := by
    simp only [next, Desk.submit, hbusy, if_true]
  rw [hnext]
  cases hreaction : host [.error Desk.busyText] with
  | cancel =>
      simp only [Move.reaching, Desk.turnAway, hreaction]
      exact ⟨(h.desk.step .cancel).1, (h.desk.step .cancel).2, rfl, rfl⟩
  | pass =>
      simp only [Move.reaching, Desk.turnAway, hreaction]
      exact ⟨h.desk, [], by rw [List.append_nil]; rfl, rfl⟩
  | fail why =>
      simp only [Move.reaching, Desk.turnAway, hreaction]
      exact ⟨h.desk, [], by rw [List.append_nil]; rfl, rfl⟩

theorem actsOf_insert (front back : List Deed) (t u : Nat) (d : Desk) (a : Act) :
    actsOf ⟨d, front ++ ⟨u, a⟩ :: back⟩ t =
      Deed.actsOf t front ++ (if u = t then [a] else []) ++ Deed.actsOf t back := by
  have hone : Deed.actsOf t [⟨u, a⟩] = if u = t then [a] else [] := by
    split
    · next heq =>
        subst heq
        exact Deed.actsOf_self u [a]
    · next hne => exact Deed.actsOf_of_ne hne [a]
  rw [actsOf, ← List.singleton_append, ← List.append_assoc, Deed.actsOf_append,
    Deed.actsOf_append, hone]

theorem resultsOf_cons (d : Desk) (deeds : List Deed) (t u : Nat) (result : Option Outcome) :
    resultsOf ⟨{ d with results := (u, result) :: d.results }, deeds⟩ t =
      (if u = t then [result] else []) ++ resultsOf ⟨d, deeds⟩ t := by
  unfold resultsOf
  simp only [List.filter_cons]
  by_cases hticket : u = t <;> simp [hticket]

/-- The request under a ticket is not on its way. -/
def Left (t : Nat) (h : History) : Prop := ∀ r, h.desk.active ≠ some (t, r)

/-- Everything under a ticket stays as it is. -/
def Keeps (t : Nat) (h h' : History) : Prop :=
  Left t h' ∧ h'.actsOf t = h.actsOf t ∧ h'.resultsOf t = h.resultsOf t

theorem keeps_settled (h : History) (r : Run) (hne : u ≠ t) : Keeps t h (h.settled u r) := by
  refine ⟨fun s hactive => ?_, actsOf_settled_of_ne h r hne, ?_⟩
  · cases hover : r.isOver with
    | true =>
        rw [settled, (Desk.settle_of_isOver h.desk u hover).1] at hactive
        cases hactive
    | false =>
        rw [settled, (Desk.settle_of_not_isOver h.desk u hover).1] at hactive
        cases hactive
        exact hne rfl
  · rw [resultsOf_settled, beq_eq_false_iff_ne.2 hne, Bool.and_false]
    rfl

theorem Left.signal (hleft : Left t h) (x : Signal) : Keeps t h (h.next (.signal x)) := by
  cases hactive : h.desk.active with
  | none =>
      rw [next_signal_of_none hactive]
      exact ⟨hleft, rfl, rfl⟩
  | some entry =>
      obtain ⟨u, r⟩ := entry
      rw [next_signal_of_some hactive]
      refine keeps_settled h _ fun heq => ?_
      subst heq
      exact hleft r hactive

theorem Left.signals (hleft : Left t h) (xs : List Signal) :
    Keeps t h (h.after (xs.map .signal)) := by
  induction xs generalizing h with
  | nil => exact ⟨hleft, rfl, rfl⟩
  | cons x xs ih =>
      obtain ⟨hleft', hacts, hresults⟩ := hleft.signal x
      obtain ⟨hleft'', hacts', hresults'⟩ := ih hleft'
      exact ⟨hleft'', hacts'.trans hacts, hresults'.trans hresults⟩

theorem Left.next (hleft : Left t h) {m : Move} (hm : m.ticket? ≠ some t) :
    Keeps t h (h.next m) := by
  cases m with
  | signal x => exact hleft.signal x
  | submit u name request host =>
      have hne : u ≠ t := fun heq => hm (congrArg some heq)
      cases hbusy : h.desk.isBusy with
      | false =>
          rw [next_submit_of_free hbusy]
          exact keeps_settled h _ hne
      | true =>
          obtain ⟨d, new, hreaching, hnext⟩ := exists_next_submit (u := u) hbusy name request host
          have hkeeps := hleft.signals (Move.submit u name request host).reaching
          rw [hreaching] at hkeeps
          obtain ⟨hleft', hacts, hresults⟩ := hkeeps
          rw [hnext]
          refine ⟨hleft', ?_, ?_⟩
          · rw [actsOf_insert, if_neg hne, List.append_nil, ← Deed.actsOf_append]
            exact hacts
          · rw [resultsOf_cons, if_neg hne]
            exact hresults

theorem Left.after (hleft : Left t h) {ms : List Move} (hms : t ∉ Move.tickets ms) :
    Keeps t h (h.after ms) := by
  induction ms generalizing h with
  | nil => exact ⟨hleft, rfl, rfl⟩
  | cons m ms ih =>
      obtain ⟨hm, hms'⟩ := Move.not_mem_tickets_cons hms
      obtain ⟨hleft', hacts, hresults⟩ := hleft.next hm
      obtain ⟨hleft'', hacts', hresults'⟩ := ih hleft' hms'
      exact ⟨hleft'', hacts'.trans hacts, hresults'.trans hresults⟩

/-! ### The run under a ticket -/

/-- What is shown under a ticket is what the run does. -/
structure Shows (t : Nat) (r : Run) (h : History) : Prop where
  attended : r.Attended
  acts : h.actsOf t = r.scene.acts.reverse
  results : h.resultsOf t = if r.isOver then [r.outcome?] else []
  active : r.isOver = false → h.desk.active = some (t, r.takeActs.2)
  left : r.isOver = true → Left t h

theorem shows_settled {old : List Act} (hattended : r.Attended) (hacts : h.actsOf t = old.reverse)
    (hresults : h.resultsOf t = []) : Shows t (r.upon old) (h.settled t r) := by
  refine ⟨hattended, ?_, ?_, fun hover => ?_, fun hover s hactive => ?_⟩
  · rw [actsOf_settled_self, hacts, ← List.reverse_append]
    rfl
  · rw [resultsOf_settled, hresults, List.append_nil, beq_self_eq_true, Bool.and_true]
    rfl
  · have hopen : r.isOver = false := hover
    rw [settled, (Desk.settle_of_not_isOver h.desk t hopen).1]
    rfl
  · have hclosed : r.isOver = true := hover
    rw [settled, (Desk.settle_of_isOver h.desk t hclosed).1] at hactive
    cases hactive

theorem Shows.keeps (hshows : Shows t r h) (hover : r.isOver = true) (hkeeps : Keeps t h h') :
    Shows t r h' where
  attended := hshows.attended
  acts := hkeeps.2.1.trans hshows.acts
  results := hkeeps.2.2.trans hshows.results
  active hopen := by rw [hover] at hopen; cases hopen
  left _ := hkeeps.1

theorem Shows.signal (hshows : Shows t r h) (x : Signal) :
    Shows t (r.step x) (h.next (.signal x)) := by
  cases hover : r.isOver with
  | true =>
      rw [Run.step_of_isOver hshows.attended hover]
      exact hshows.keeps hover ((hshows.left hover).signal x)
  | false =>
      have hstep : r.step x = (r.takeActs.2.step x).upon r.scene.acts := by
        rw [← Run.step_upon, Run.takeActs_upon]
      have hattended : (r.takeActs.2.step x).Attended := by
        have hr : r.takeActs.2.Attended := hshows.attended
        exact hr.step x
      rw [next_signal_of_some (hshows.active hover), hstep]
      refine shows_settled hattended hshows.acts ?_
      rw [hshows.results, hover]
      rfl

theorem Shows.signals (hshows : Shows t r h) (xs : List Signal) :
    Shows t (r.after xs) (h.after (xs.map .signal)) := by
  induction xs generalizing r h with
  | nil => exact hshows
  | cons x xs ih => exact ih (hshows.signal x)

theorem Shows.next (hshows : Shows t r h) {m : Move} (hm : m.ticket? ≠ some t) :
    Shows t (r.after m.reaching) (h.next m) := by
  cases hover : r.isOver with
  | true =>
      rw [Run.after_of_isOver hshows.attended hover]
      exact hshows.keeps hover ((hshows.left hover).next hm)
  | false =>
      cases m with
      | signal x => exact hshows.signal x
      | submit u name request host =>
          have hne : u ≠ t := fun heq => hm (congrArg some heq)
          have hbusy : h.desk.isBusy = true := by
            rw [Desk.isBusy, hshows.active hover]
            rfl
          obtain ⟨d, new, hreaching, hnext⟩ := exists_next_submit (u := u) hbusy name request host
          have hshows' := hshows.signals (Move.submit u name request host).reaching
          rw [hreaching] at hshows'
          rw [hnext]
          refine ⟨hshows'.attended, ?_, ?_, hshows'.active, hshows'.left⟩
          · rw [actsOf_insert, if_neg hne, List.append_nil, ← Deed.actsOf_append]
            exact hshows'.acts
          · rw [resultsOf_cons, if_neg hne]
            exact hshows'.results

theorem Shows.after (hshows : Shows t r h) {ms : List Move} (hms : t ∉ Move.tickets ms) :
    Shows t (r.after (ms.flatMap Move.reaching)) (h.after ms) := by
  induction ms generalizing r h with
  | nil => exact hshows
  | cons m ms ih =>
      obtain ⟨hm, hms'⟩ := Move.not_mem_tickets_cons hms
      rw [List.flatMap_cons]
      have hsplit : r.after (m.reaching ++ ms.flatMap Move.reaching) =
          (r.after m.reaching).after (ms.flatMap Move.reaching) := List.foldl_append
      rw [hsplit]
      exact ih (hshows.next hm) hms'

theorem settings_next (h : History) (m : Move) :
    (h.next m).desk.settings = h.desk.settings := by
  cases m with
  | signal x => exact Desk.settings_step h.desk x
  | submit u name request host =>
      cases hbusy : h.desk.isBusy with
      | false =>
          rw [next_submit_of_free hbusy]
          exact Desk.settings_settle h.desk u _
      | true =>
          have hturn : (h.desk.turnAway u host).1.settings = h.desk.settings := by
            obtain ⟨d, deeds, hd, hturned⟩ := h.desk.turnAway_cases u host
            rw [hturned]
            rcases hd with ⟨rfl, -⟩ | hstep
            · rfl
            · rw [show d = (h.desk.step .cancel).1 from congrArg Prod.fst hstep]
              exact Desk.settings_step h.desk .cancel
          simpa only [next, Desk.submit, hbusy, if_true] using hturn

theorem settings_after (h : History) (ms : List Move) :
    (h.after ms).desk.settings = h.desk.settings := by
  induction ms generalizing h with
  | nil => rfl
  | cons m ms ih => exact (ih (h.next m)).trans (settings_next h m)

theorem tickets_append (ms ns : List Move) :
    Move.tickets (ms ++ ns) = Move.tickets ms ++ Move.tickets ns := List.filterMap_append

/-- **What is shown of a request that was admitted is what its run does alone.** -/
theorem shows_admitted {settings : Settings} {before later : List Move} {name : Text}
    {request : Request} {host : Host}
    (hd : (Move.tickets (before ++ .submit t name request host :: later)).Nodup)
    (hfree : ((start settings).after before).desk.isBusy = false) :
    Shows t ((Run.begin settings name request host).after (later.flatMap Move.reaching))
      ((start settings).after (before ++ .submit t name request host :: later)) := by
  have htickets : Move.tickets (before ++ .submit t name request host :: later) =
      Move.tickets before ++ t :: Move.tickets later := tickets_append before _
  rw [htickets] at hd
  obtain ⟨hbefore, hlater, hdisjoint⟩ := List.nodup_append.1 hd
  have hnew : t ∉ Move.tickets before := fun hmem => hdisjoint t hmem t List.mem_cons_self rfl
  have hsound := (sound_start settings).after before (by rwa [List.nil_append])
  rw [List.nil_append] at hsound
  have hbegun : Shows t ((Run.begin settings name request host).upon []) _ :=
    shows_settled (Run.attended_begin settings name request host) (hsound.actsOf_eq_nil hnew)
      (hsound.resultsOf_eq_nil hnew)
  have hupon : (Run.begin settings name request host).upon [] =
      Run.begin settings name request host := by
    unfold Run.upon Scene.upon
    rw [List.append_nil]
  rw [hupon] at hbegun
  rw [after_append]
  show Shows t _ ((((start settings).after before).next _).after later)
  rw [next_submit_of_free hfree, settings_after]
  exact hbegun.after (List.nodup_cons.1 hlater).1

/-- The histories differ in nothing but in what is done under a ticket that is not on its way. -/
structure Beside (t : Nat) (h h' : History) : Prop where
  settings : h.desk.settings = h'.desk.settings
  phase : h.desk.phase = h'.desk.phase
  active : h.desk.active = h'.desk.active
  acts : ∀ u, u ≠ t → h.actsOf u = h'.actsOf u
  results : ∀ u, u ≠ t → h.resultsOf u = h'.resultsOf u

theorem Beside.settled (hb : Beside t h h') (u : Nat) (r : Run) :
    Beside t (h.settled u r) (h'.settled u r) := by
  refine ⟨?_, ?_, ?_, fun v hv => ?_, fun v hv => ?_⟩
  · show (h.desk.settle u r).1.settings = (h'.desk.settle u r).1.settings
    rw [Desk.settings_settle, Desk.settings_settle]
    exact hb.settings
  · show (h.desk.settle u r).1.phase = (h'.desk.settle u r).1.phase
    unfold Desk.settle
    simp only [hb.phase]
    split <;> rfl
  · show (h.desk.settle u r).1.active = (h'.desk.settle u r).1.active
    unfold Desk.settle
    simp only
    split <;> rfl
  · by_cases huv : u = v
    · subst huv
      rw [actsOf_settled_self, actsOf_settled_self, hb.acts u hv]
    · rw [actsOf_settled_of_ne h r huv, actsOf_settled_of_ne h' r huv]
      exact hb.acts v hv
  · rw [resultsOf_settled, resultsOf_settled, hb.results v hv]

theorem Beside.signal (hb : Beside t h h') (x : Signal) :
    Beside t (h.next (.signal x)) (h'.next (.signal x)) := by
  cases hactive : h.desk.active with
  | none =>
      rw [next_signal_of_none hactive, next_signal_of_none (hb.active ▸ hactive)]
      exact hb
  | some entry =>
      obtain ⟨u, r⟩ := entry
      rw [next_signal_of_some hactive, next_signal_of_some (hb.active ▸ hactive)]
      exact hb.settled u _

theorem Beside.signals (hb : Beside t h h') (xs : List Signal) :
    Beside t (h.after (xs.map .signal)) (h'.after (xs.map .signal)) := by
  induction xs generalizing h h' with
  | nil => exact hb
  | cons x xs ih => exact ih (hb.signal x)

theorem Beside.next (hb : Beside t h h') (m : Move) : Beside t (h.next m) (h'.next m) := by
  cases m with
  | signal x => exact hb.signal x
  | submit u name request host =>
      cases hbusy : h.desk.isBusy with
      | false =>
          have hbusy' : h'.desk.isBusy = false := by rwa [Desk.isBusy, ← hb.active]
          rw [next_submit_of_free hbusy, next_submit_of_free hbusy', hb.settings]
          exact hb.settled u _
      | true =>
          have hbusy' : h'.desk.isBusy = true := by rwa [Desk.isBusy, ← hb.active]
          obtain ⟨d, new, hreaching, hnext⟩ := exists_next_submit (u := u) hbusy name request host
          obtain ⟨d', new', hreaching', hnext'⟩ :=
            exists_next_submit (u := u) hbusy' name request host
          have hb' := hb.signals (Move.submit u name request host).reaching
          rw [hreaching, hreaching'] at hb'
          rw [hnext, hnext']
          refine ⟨hb'.settings, hb'.phase, hb'.active, fun v hv => ?_, fun v hv => ?_⟩
          · have hold : Deed.actsOf v h.deeds = Deed.actsOf v h'.deeds := hb.acts v hv
            have hboth : Deed.actsOf v (h.deeds ++ new) = Deed.actsOf v (h'.deeds ++ new') :=
              hb'.acts v hv
            rw [Deed.actsOf_append, Deed.actsOf_append, hold] at hboth
            rw [actsOf_insert, actsOf_insert, hold, List.append_cancel_left hboth]
          · rw [resultsOf_cons, resultsOf_cons]
            exact congrArg _ (hb'.results v hv)

theorem Beside.after (hb : Beside t h h') (ms : List Move) :
    Beside t (h.after ms) (h'.after ms) := by
  induction ms generalizing h h' with
  | nil => exact hb
  | cons m ms ih => exact ih (hb.next m)

/-- Being turned away changes nothing for the others. -/
theorem beside_turnedAway (hbusy : h.desk.isBusy = true) (name : Text) (request : Request)
    (host : Host) : Beside t (h.next (.submit t name request host))
      (h.after ((Move.submit t name request host).reaching.map .signal)) := by
  obtain ⟨d, new, hreaching, hnext⟩ := exists_next_submit (u := t) hbusy name request host
  rw [hreaching, hnext]
  refine ⟨rfl, rfl, rfl, fun u hu => ?_, fun u hu => ?_⟩
  · rw [actsOf_insert, if_neg hu.symm, List.append_nil, ← Deed.actsOf_append]
    rfl
  · rw [resultsOf_cons, if_neg hu.symm]
    rfl

/-- A request that is turned away is told so, and comes to nothing. -/
theorem shows_turnedAway {used : List Nat} (hs : Sound used h) (ht : t ∉ used)
    (hbusy : h.desk.isBusy = true) (name : Text) (request : Request) (host : Host) :
    Left t (h.next (.submit t name request host)) ∧
    (h.next (.submit t name request host)).actsOf t = [.event (.error Desk.busyText)] ∧
    (h.next (.submit t name request host)).resultsOf t = [none] := by
  have hleft : Left t h := fun r hactive => ht (hs.active t r hactive).1
  obtain ⟨d, new, hreaching, hnext⟩ := exists_next_submit (u := t) hbusy name request host
  have hkeeps := hleft.signals (Move.submit t name request host).reaching
  rw [hreaching] at hkeeps
  obtain ⟨hleft', hacts, hresults'⟩ := hkeeps
  have hold : Deed.actsOf t h.deeds = [] := hs.actsOf_eq_nil ht
  have hboth : Deed.actsOf t (h.deeds ++ new) = [] := hacts.trans hold
  rw [Deed.actsOf_append, List.append_eq_nil_iff] at hboth
  rw [hnext]
  refine ⟨hleft', ?_, ?_⟩
  · rw [actsOf_insert, if_pos rfl, hold, hboth.2]
    rfl
  · rw [resultsOf_cons, if_pos rfl]
    exact congrArg ([none] ++ ·) (hresults'.trans (hs.resultsOf_eq_nil ht))

/-! ### Isolation -/

section Isolation

variable {settings : Settings} {before later : List Move} {ticket : Nat} {name : Text}
  {request : Request} {host : Host}

/-- A request that arrives while another is on its way. -/
theorem apart_of_busy
    (hd : (Move.tickets (before ++ .submit ticket name request host :: later)).Nodup)
    (hbusy : ((start settings).after before).desk.isBusy = true) :
    let arrival := Move.submit ticket name request host
    let all := (start settings).after (before ++ arrival :: later)
    all.actsOf ticket = [.event (.error Desk.busyText)] ∧ all.resultsOf ticket = [none] ∧
      Beside ticket all
        ((start settings).after (before ++ (arrival.reaching.map .signal ++ later))) := by
  intro arrival all
  have htickets : Move.tickets (before ++ arrival :: later) =
      Move.tickets before ++ ticket :: Move.tickets later := tickets_append before _
  rw [htickets] at hd
  obtain ⟨-, hlater, hdisjoint⟩ := List.nodup_append.1 hd
  have hsound := (sound_start settings).after before
    (by rw [List.nil_append]; exact (List.nodup_append.1 hd).1)
  rw [List.nil_append] at hsound
  have hnew : ticket ∉ Move.tickets before := fun hmem =>
    hdisjoint ticket hmem ticket List.mem_cons_self rfl
  obtain ⟨hleft, hacts, hresults⟩ := shows_turnedAway hsound hnew hbusy name request host
  obtain ⟨-, hacts', hresults'⟩ := hleft.after (List.nodup_cons.1 hlater).1
  have hall : all = (((start settings).after before).next arrival).after later :=
    after_append _ before (arrival :: later)
  rw [hall, after_append, after_append]
  exact ⟨hacts'.trans hacts, hresults'.trans hresults,
    (beside_turnedAway hbusy name request host).after later⟩

/-- A request that is admitted. -/
theorem alone_of_free
    (hd : (Move.tickets (before ++ .submit ticket name request host :: later)).Nodup)
    (hfree : ((start settings).after before).desk.isBusy = false) :
    let arrival := Move.submit ticket name request host
    let all := (start settings).after (before ++ arrival :: later)
    let alone := (start settings).after (arrival :: (later.flatMap Move.reaching).map .signal)
    all.actsOf ticket = alone.actsOf ticket ∧ all.resultsOf ticket = alone.resultsOf ticket := by
  intro arrival all alone
  have hsignals : Move.tickets ((later.flatMap Move.reaching).map .signal) = [] :=
    List.filterMap_eq_nil_iff.2 fun m hm => by
      obtain ⟨x, -, rfl⟩ := List.mem_map.1 hm
      rfl
  have hreaching : ((later.flatMap Move.reaching).map Move.signal).flatMap Move.reaching =
      later.flatMap Move.reaching := by
    rw [List.flatMap_map]
    exact List.flatMap_singleton' _
  have hone : (Move.tickets ([] ++ arrival ::
      (later.flatMap Move.reaching).map .signal)).Nodup := by
    rw [tickets_append]
    show (ticket :: Move.tickets ((later.flatMap Move.reaching).map .signal)).Nodup
    rw [hsignals]
    exact List.nodup_singleton ticket
  have hshows := shows_admitted hd hfree
  -- alone, the same signals reach the same run
  have halone : Shows ticket ((Run.begin settings name request host).after
      (((later.flatMap Move.reaching).map Move.signal).flatMap Move.reaching)) alone :=
    shows_admitted hone rfl
  rw [hreaching] at halone
  exact ⟨hshows.acts.trans halone.acts.symm, hshows.results.trans halone.results.symm⟩

end Isolation

/-- **Requests do not see each other.** One that arrives while another is on its way is told so, in
one event, and comes to nothing; the phase, the request on its way, and all that is done under other
tickets and comes of it, are what they are without it, unless its host cancels the request on its
way, which is then cancelled as from outside. One that is admitted does and comes to what it does and
comes to at a new desk with the same signals. -/
theorem requests_apart {settings : Settings} {before later : List Move} {ticket : Nat} {name : Text}
    {request : Request} {host : Host}
    (hd : (Move.tickets (before ++ .submit ticket name request host :: later)).Nodup) :
    let arrival := Move.submit ticket name request host
    let all := (start settings).after (before ++ arrival :: later)
    let without := (start settings).after (before ++ (arrival.reaching.map .signal ++ later))
    let alone := (start settings).after (arrival :: (later.flatMap Move.reaching).map .signal)
    (((start settings).after before).desk.isBusy = true →
      all.actsOf ticket = [.event (.error Desk.busyText)] ∧ all.resultsOf ticket = [none] ∧
      all.desk.phase = without.desk.phase ∧ all.desk.active = without.desk.active ∧
      ∀ other, other ≠ ticket → all.actsOf other = without.actsOf other ∧
        all.resultsOf other = without.resultsOf other) ∧
    (((start settings).after before).desk.isBusy = false →
      all.actsOf ticket = alone.actsOf ticket ∧ all.resultsOf ticket = alone.resultsOf ticket) := by
  intro arrival all without alone
  refine ⟨fun hbusy => ?_, alone_of_free hd⟩
  obtain ⟨hacts, hresults, hbeside⟩ := apart_of_busy hd hbusy
  exact ⟨hacts, hresults, hbeside.phase, hbeside.active, fun other hother =>
    ⟨hbeside.acts other hother, hbeside.results other hother⟩⟩

/-- One request is on its way and is cancelled; another is turned away meanwhile, and a third one is
admitted after it. -/
theorem apart_of_three_requests :
    let request : Request := { code := "a = 1".toList, code_filled := by decide }
    let arrival (ticket : Nat) : Move := .submit ticket [] request fun _ => .pass
    let before : List Move := [arrival 0, .signal .resume, .signal .opened]
    let ending : List Move := [.signal .cancel, .signal .resume, .signal .resume, .signal .resume]
    let all := (start {}).after (before ++ arrival 1 :: (ending ++ [arrival 2, .signal .resume]))
    all.actsOf 1 = [.event (.error "Optimization already in progress.".toList)] ∧
      all.actsOf 0 = ((start {}).after (before ++ (ending ++
        [arrival 2, .signal .resume]))).actsOf 0 ∧
      all.actsOf 2 = ((start {}).after [arrival 2, .signal .resume]).actsOf 2 := by
  intro request arrival before ending all
  have hbusy : ((start {}).after before).desk.isBusy = true := by decide +kernel
  have hfree : ((start {}).after (before ++ arrival 1 :: ending)).desk.isBusy = false := by
    decide +kernel
  have hd : (Move.tickets (before ++ arrival 1 :: (ending ++
      [arrival 2, .signal .resume]))).Nodup := by decide
  have hsplit : before ++ arrival 1 :: (ending ++ [arrival 2, .signal .resume]) =
      before ++ arrival 1 :: ending ++ arrival 2 :: [.signal .resume] := rfl
  obtain ⟨hacts, -, -, -, hothers⟩ := (requests_apart hd).1 hbusy
  have hadmitted := (requests_apart (hsplit ▸ hd)).2 hfree
  rw [← hsplit] at hadmitted
  exact ⟨hacts, (hothers 0 (by decide)).1, hadmitted.1⟩

end History
end Refinery
