import Mathlib.Data.List.Nodup
import Refinery.Proofs.Session.Ending
import Refinery.Session.Desk

/-!
Histories of a desk. Requests come and signals arrive in any order; every request that comes to
something has told its host exactly one event that ends it, and told it last. The invariant follows
the acts under each ticket from the arrival of its request on.
-/

namespace Refinery

/-- What happens at a desk: a request arrives, or a signal does for the one on its way. -/
inductive Move where
  | submit (ticket : Nat) (name : Text) (request : Request) (host : Host)
  | signal (x : Signal)

def Move.ticket? : Move → Option Nat
  | .submit ticket .. => some ticket
  | .signal _ => none

/-- The tickets of the requests that arrive. -/
def Move.tickets (ms : List Move) : List Nat := ms.filterMap Move.ticket?

/-- The acts under a ticket. -/
def Deed.actsOf (ticket : Nat) (deeds : List Deed) : List Act :=
  (deeds.filter (·.ticket == ticket)).map (·.act)

/-- A desk and all that was done there. -/
structure History where
  desk : Desk
  deeds : List Deed := []

namespace Deed

theorem actsOf_append (t : Nat) (ds es : List Deed) :
    actsOf t (ds ++ es) = actsOf t ds ++ actsOf t es := by
  simp only [actsOf, List.filter_append, List.map_append]

theorem actsOf_self (t : Nat) (acts : List Act) : actsOf t (acts.map (⟨t, ·⟩)) = acts := by
  induction acts with
  | nil => rfl
  | cons a as ih =>
      rw [actsOf] at ih
      simp [actsOf, ih]

theorem actsOf_eq_nil {t : Nat} {ds : List Deed} (h : ∀ d ∈ ds, d.ticket ≠ t) :
    actsOf t ds = [] := by
  rw [actsOf, List.map_eq_nil_iff, List.filter_eq_nil_iff]
  intro d hd
  simpa using h d hd

theorem actsOf_of_ne {t u : Nat} (h : u ≠ t) (acts : List Act) :
    actsOf t (acts.map (⟨u, ·⟩)) = [] := by
  refine actsOf_eq_nil fun d hd => ?_
  obtain ⟨a, -, rfl⟩ := List.mem_map.1 hd
  exact h

end Deed

namespace Desk

theorem settle_of_isOver {r : Run} (d : Desk) (t : Nat) (h : r.isOver = true) :
    (d.settle t r).1.active = none ∧ (d.settle t r).1.results = (t, r.outcome?) :: d.results := by
  have hover : r.takeActs.2.isOver = true := h
  unfold settle
  simp only [hover, if_true]
  exact ⟨trivial, rfl⟩

theorem settle_of_not_isOver {r : Run} (d : Desk) (t : Nat) (h : r.isOver = false) :
    (d.settle t r).1.active = some (t, { r with scene := { r.scene with acts := [] } }) ∧
      (d.settle t r).1.results = d.results := by
  have hover : r.takeActs.2.isOver = false := h
  unfold settle
  simp only [hover, Bool.false_eq_true, if_false]
  exact ⟨rfl, trivial⟩

theorem settle_deeds (d : Desk) (t : Nat) (r : Run) :
    (d.settle t r).2 = r.scene.acts.reverse.map (⟨t, ·⟩) := rfl

/-- Who comes to something leaves the desk free. -/
theorem mem_results_settle {d : Desk} {t : Nat} {r : Run} {entry : Nat × Option Outcome}
    (h : entry ∈ (d.settle t r).1.results) :
    entry ∈ d.results ∨ (d.settle t r).1.isBusy = false := by
  cases hover : r.isOver with
  | true =>
      right
      rw [isBusy, (settle_of_isOver d t hover).1]
      rfl
  | false =>
      left
      rwa [(settle_of_not_isOver d t hover).2] at h

theorem results_settle_subset (d : Desk) (t : Nat) (r : Run) :
    d.results ⊆ (d.settle t r).1.results := by
  cases hover : r.isOver with
  | true =>
      rw [(settle_of_isOver d t hover).2]
      exact List.subset_cons_self _ _
  | false =>
      rw [(settle_of_not_isOver d t hover).2]
      exact List.Subset.refl _

theorem mem_results_step {d : Desk} {x : Signal} {entry : Nat × Option Outcome}
    (h : entry ∈ (d.step x).1.results) : entry ∈ d.results ∨ (d.step x).1.isBusy = false := by
  unfold step at h ⊢
  split at h
  · exact Or.inl h
  · exact mem_results_settle h

theorem results_step_subset (d : Desk) (x : Signal) : d.results ⊆ (d.step x).1.results := by
  unfold step
  split
  · exact List.Subset.refl _
  · exact results_settle_subset _ _ _

/-- What a desk does when it turns a request away: it says so, and takes a cancellation perhaps. -/
theorem turnAway_cases (d : Desk) (t : Nat) (host : Host) :
    ∃ d' deeds, (d' = d ∧ deeds = [] ∨ (d', deeds) = d.step .cancel) ∧
      d.turnAway t host = ({ d' with results := (t, none) :: d'.results },
        ⟨t, .event (.error busyText)⟩ :: deeds) := by
  unfold turnAway
  simp only
  split
  · exact ⟨_, _, Or.inr rfl, rfl⟩
  · exact ⟨d, [], Or.inl ⟨rfl, rfl⟩, rfl⟩

end Desk

namespace History

/-- The desk as it opens. -/
def start (settings : Settings) : History := { desk := { settings := settings } }

/-- One more move. -/
def next (h : History) : Move → History
  | .submit ticket name request host =>
    let (desk, deeds) := h.desk.submit ticket request host name
    ⟨desk, h.deeds ++ deeds⟩
  | .signal x =>
    let (desk, deeds) := h.desk.step x
    ⟨desk, h.deeds ++ deeds⟩

def after (h : History) (ms : List Move) : History := ms.foldl next h

theorem after_append (h : History) (ms ns : List Move) :
    h.after (ms ++ ns) = (h.after ms).after ns := List.foldl_append

/-- The acts under a ticket. -/
def actsOf (h : History) (ticket : Nat) : List Act := Deed.actsOf ticket h.deeds

/-! ### The invariant -/

/-- All acts of a request that came to something: it was admitted, or told that the desk is busy. -/
def Answered (result : Option Outcome) (acts : List Act) : Prop :=
  Complete result acts ∨ (result = none ∧ acts = [.event (.error Desk.busyText)])

/-- Every request whose ticket is used is at one of its stages, as its acts show. -/
structure Sound (used : List Nat) (h : History) : Prop where
  known : ∀ d ∈ h.deeds, d.ticket ∈ used
  settled : ∀ t result, (t, result) ∈ h.desk.results → t ∈ used ∧ Answered result (h.actsOf t)
  active : ∀ t r, h.desk.active = some (t, r) → t ∈ used ∧
    (∀ result, (t, result) ∉ h.desk.results) ∧ r.isOver = false ∧ r.scene.acts = [] ∧
    Begun (h.actsOf t)

theorem Sound.actsOf_eq_nil {used : List Nat} {h : History} {t : Nat} (hs : Sound used h)
    (ht : t ∉ used) : h.actsOf t = [] :=
  Deed.actsOf_eq_nil fun d hd heq => ht (heq ▸ hs.known d hd)

theorem Sound.not_mem_results {used : List Nat} {h : History} {t : Nat} (hs : Sound used h)
    (ht : t ∉ used) (result : Option Outcome) : (t, result) ∉ h.desk.results :=
  fun hmem => ht (hs.settled t result hmem).1

theorem Sound.mono {used more : List Nat} {h : History} (hs : Sound used h) (hsub : used ⊆ more) :
    Sound more h where
  known d hd := hsub (hs.known d hd)
  settled t result hmem := ⟨hsub (hs.settled t result hmem).1, (hs.settled t result hmem).2⟩
  active t r hr := ⟨hsub (hs.active t r hr).1, (hs.active t r hr).2⟩

theorem sound_start (settings : Settings) : Sound [] (start settings) where
  known _ h := absurd h List.not_mem_nil
  settled _ _ h := absurd h List.not_mem_nil
  active _ _ h := nomatch h

/-- The desk notes what the run under a ticket has done. -/
theorem Sound.settle {used : List Nat} {h : History} {t : Nat} {r : Run} (hs : Sound used h)
    (ht : t ∈ used) (hnew : ∀ result, (t, result) ∉ h.desk.results)
    (hopen : r.isOver = false → Begun (h.actsOf t ++ r.scene.acts.reverse))
    (hover : r.isOver = true → Complete r.outcome? (h.actsOf t ++ r.scene.acts.reverse)) :
    Sound used ⟨(h.desk.settle t r).1, h.deeds ++ (h.desk.settle t r).2⟩ := by
  have hself : actsOf ⟨(h.desk.settle t r).1, h.deeds ++ (h.desk.settle t r).2⟩ t =
      h.actsOf t ++ r.scene.acts.reverse := by
    rw [actsOf, Deed.actsOf_append, Desk.settle_deeds, Deed.actsOf_self, actsOf]
  have hother : ∀ u, t ≠ u →
      actsOf ⟨(h.desk.settle t r).1, h.deeds ++ (h.desk.settle t r).2⟩ u = h.actsOf u := by
    intro u hu
    rw [actsOf, Deed.actsOf_append, Desk.settle_deeds, Deed.actsOf_of_ne hu, List.append_nil, actsOf]
  have hknown : ∀ d ∈ h.deeds ++ (h.desk.settle t r).2, d.ticket ∈ used := by
    intro d hd
    rcases List.mem_append.1 hd with hd | hd
    · exact hs.known d hd
    · obtain ⟨a, -, rfl⟩ := List.mem_map.1 hd
      exact ht
  have hold : ∀ u result, (u, result) ∈ h.desk.results → u ∈ used ∧
      Answered result (actsOf ⟨(h.desk.settle t r).1, h.deeds ++ (h.desk.settle t r).2⟩ u) := by
    intro u result hmem
    have hne : t ≠ u := fun e => hnew result (e ▸ hmem)
    rw [hother u hne]
    exact hs.settled u result hmem
  cases hr : r.isOver with
  | true =>
      obtain ⟨hactive, hresults⟩ := Desk.settle_of_isOver h.desk t hr
      refine ⟨hknown, fun u result hmem => ?_, fun u s hu => ?_⟩
      · rw [hresults] at hmem
        rcases List.mem_cons.1 hmem with heq | hmem
        · cases heq
          refine ⟨ht, Or.inl ?_⟩
          rw [hself]
          exact hover hr
        · exact hold u result hmem
      · rw [hactive] at hu
        cases hu
  | false =>
      obtain ⟨hactive, hresults⟩ := Desk.settle_of_not_isOver h.desk t hr
      refine ⟨hknown, fun u result hmem => ?_, fun u s hu => ?_⟩
      · rw [hresults] at hmem
        exact hold u result hmem
      · rw [hactive, Option.some.injEq, Prod.mk.injEq] at hu
        obtain ⟨rfl, rfl⟩ := hu
        refine ⟨ht, fun result => ?_, hr, rfl, ?_⟩
        · rw [hresults]
          exact hnew result
        · rw [hself]
          exact hopen hr

theorem Sound.signal {used : List Nat} {h : History} (hs : Sound used h) (x : Signal) :
    Sound used (h.next (.signal x)) := by
  cases hactive : h.desk.active with
  | none =>
      have hstep : h.desk.step x = (h.desk, []) := by rw [Desk.step, hactive]
      have hnext : h.next (.signal x) = h := by
        simp only [next, hstep, List.append_nil]
      rwa [hnext]
  | some entry =>
      obtain ⟨t, r⟩ := entry
      obtain ⟨ht, hnew, hopen, hacts, hbegun⟩ := hs.active t r hactive
      have hstep : h.desk.step x = h.desk.settle t (r.step x) := by rw [Desk.step, hactive]
      have hnext : h.next (.signal x) = ⟨(h.desk.settle t (r.step x)).1,
          h.deeds ++ (h.desk.settle t (r.step x)).2⟩ := by
        simp only [next, hstep]
      rw [hnext]
      have hprogress := (Run.advance_step r x).progress hopen
      cases hprogress with
      | @ongoing plain hover acts hplain =>
          rw [hacts, List.reverse_nil, List.nil_append] at acts
          refine hs.settle ht hnew (fun _ => ?_) (fun h => by rw [hover] at h; cases h)
          rw [acts]
          exact hbegun.append hplain
      | @closed plain ending hover acts hplain hending =>
          rw [hacts, List.reverse_nil, List.nil_append] at acts
          refine hs.settle ht hnew (fun h => by rw [hover] at h; cases h) (fun _ => ?_)
          rw [acts, ← List.append_assoc]
          exact ⟨_, _, rfl, hbegun.append hplain, hending⟩

/-- A request is turned away under a new ticket; what else is done then is done under others. -/
theorem Sound.turnAway {used : List Nat} {h : History} {t : Nat} {front back : List Deed}
    (hs : Sound used h) (ht : t ∉ used) (hdeeds : h.deeds = front ++ back) :
    Sound (used ++ [t]) ⟨{ h.desk with results := (t, none) :: h.desk.results },
      front ++ ⟨t, .event (.error Desk.busyText)⟩ :: back⟩ := by
  have hknown : ∀ d ∈ front ++ back, d.ticket ∈ used := hdeeds ▸ hs.known
  have hacts : ∀ u, Deed.actsOf u (front ++ ⟨t, .event (.error Desk.busyText)⟩ :: back) =
      Deed.actsOf u front ++ Deed.actsOf u [⟨t, .event (.error Desk.busyText)⟩] ++
        Deed.actsOf u back := by
    intro u
    rw [← List.singleton_append, ← List.append_assoc, Deed.actsOf_append, Deed.actsOf_append]
  have hother : ∀ u, t ≠ u → Deed.actsOf u (front ++ ⟨t, .event (.error Desk.busyText)⟩ :: back) =
      h.actsOf u := by
    intro u hu
    have hone : Deed.actsOf u [⟨t, .event (.error Desk.busyText)⟩] = [] :=
      Deed.actsOf_of_ne hu [.event (.error Desk.busyText)]
    rw [hacts, actsOf, hdeeds, Deed.actsOf_append, hone, List.append_nil]
  refine ⟨fun d hd => ?_, fun u result hmem => ?_, fun u r hr => ?_⟩
  · rcases List.mem_append.1 hd with hd | hd
    · exact List.mem_append_left _ (hknown d (List.mem_append_left _ hd))
    · rcases List.mem_cons.1 hd with rfl | hd
      · exact List.mem_append_right _ (List.mem_singleton.2 rfl)
      · exact List.mem_append_left _ (hknown d (List.mem_append_right _ hd))
  · rcases List.mem_cons.1 hmem with heq | hmem
    · cases heq
      refine ⟨List.mem_append_right _ (List.mem_singleton.2 rfl), Or.inr ⟨rfl, ?_⟩⟩
      have hfront : Deed.actsOf t front = [] := Deed.actsOf_eq_nil fun d hd heq =>
        ht (heq ▸ hknown d (List.mem_append_left _ hd))
      have hback : Deed.actsOf t back = [] := Deed.actsOf_eq_nil fun d hd heq =>
        ht (heq ▸ hknown d (List.mem_append_right _ hd))
      have hone : Deed.actsOf t [⟨t, .event (.error Desk.busyText)⟩] = _ :=
        Deed.actsOf_self t [.event (.error Desk.busyText)]
      rw [actsOf, hacts, hfront, hback, hone]
      rfl
    · obtain ⟨hu, hanswered⟩ := hs.settled u result hmem
      have hne : t ≠ u := fun e => ht (e ▸ hu)
      refine ⟨List.mem_append_left _ hu, ?_⟩
      rw [actsOf, hother u hne]
      exact hanswered
  · obtain ⟨hu, hnew, hopen, hnone, hbegun⟩ := hs.active u r hr
    have hne : t ≠ u := fun e => ht (e ▸ hu)
    refine ⟨List.mem_append_left _ hu, fun result hmem => ?_, hopen, hnone, ?_⟩
    · rcases List.mem_cons.1 hmem with heq | hmem
      · cases heq
        exact hne rfl
      · exact hnew result hmem
    · rw [actsOf, hother u hne]
      exact hbegun

theorem Sound.submit {used : List Nat} {h : History} {t : Nat} (hs : Sound used h) (ht : t ∉ used)
    (name : Text) (request : Request) (host : Host) :
    Sound (used ++ [t]) (h.next (.submit t name request host)) := by
  cases hbusy : h.desk.isBusy with
  | true =>
      obtain ⟨d', deeds, hd', hturned⟩ := h.desk.turnAway_cases t host
      have hnext : h.next (.submit t name request host) =
          ⟨{ d' with results := (t, none) :: d'.results },
            h.deeds ++ ⟨t, .event (.error Desk.busyText)⟩ :: deeds⟩ := by
        simp only [next, Desk.submit, hbusy, if_true, hturned]
      have hd'' : Sound used ⟨d', h.deeds ++ deeds⟩ := by
        rcases hd' with ⟨rfl, rfl⟩ | hstep
        · rwa [List.append_nil]
        · have hcancel : h.next (.signal .cancel) = ⟨d', h.deeds ++ deeds⟩ := by
            simp only [next, ← hstep]
          rw [← hcancel]
          exact hs.signal .cancel
      rw [hnext]
      exact hd''.turnAway ht rfl
  | false =>
      have hnext : h.next (.submit t name request host) =
          ⟨(h.desk.settle t (Run.begin h.desk.settings name request host)).1,
            h.deeds ++ (h.desk.settle t (Run.begin h.desk.settings name request host)).2⟩ := by
        simp only [next, Desk.submit, hbusy, Bool.false_eq_true, if_false]
      rw [hnext]
      have hs' : Sound (used ++ [t]) h := hs.mono (List.subset_append_left _ _)
      have ht' : t ∈ used ++ [t] := List.mem_append_right _ (List.mem_singleton.2 rfl)
      have hnew := hs.not_mem_results ht
      have hbound : Begun [.bind name] := ⟨name, [], rfl, fun _ h => absurd h List.not_mem_nil⟩
      have hprogress := (Run.opening_begin h.desk.settings name request host).progress
      have hopened : (Run.opened h.desk.settings name request host).scene.acts.reverse =
          [.bind name] := rfl
      cases hprogress with
      | @ongoing plain hover acts hplain =>
          refine hs'.settle ht' hnew (fun _ => ?_) (fun h => by rw [hover] at h; cases h)
          rw [hs.actsOf_eq_nil ht, acts, hopened, List.nil_append]
          exact hbound.append hplain
      | @closed plain ending hover acts hplain hending =>
          refine hs'.settle ht' hnew (fun h => by rw [hover] at h; cases h) (fun _ => ?_)
          rw [hs.actsOf_eq_nil ht, acts, hopened, List.nil_append, ← List.append_assoc]
          exact ⟨_, _, rfl, hbound.append hplain, hending⟩

/-- The invariant holds after any moves under different tickets. -/
theorem Sound.after {used : List Nat} {h : History} (hs : Sound used h) (ms : List Move)
    (hd : (used ++ Move.tickets ms).Nodup) : Sound (used ++ Move.tickets ms) (h.after ms) := by
  induction ms generalizing used h with
  | nil =>
      have hnil : used ++ Move.tickets [] = used := List.append_nil used
      rwa [hnil]
  | cons m ms ih =>
      cases m with
      | submit t name request host =>
          have htickets : used ++ Move.tickets (.submit t name request host :: ms) =
              used ++ [t] ++ Move.tickets ms := by
            rw [List.append_assoc]
            rfl
          rw [htickets] at hd ⊢
          have ht : t ∉ used := by
            have hused := (List.nodup_append.1 (List.nodup_append.1 hd).1).2.2
            intro hmem
            exact hused t hmem t (List.mem_singleton.2 rfl) rfl
          exact ih (hs.submit ht name request host) hd
      | signal x => exact ih (hs.signal x) hd

theorem results_next_subset (h : History) (m : Move) :
    h.desk.results ⊆ (h.next m).desk.results := by
  cases m with
  | submit t name request host =>
      show h.desk.results ⊆ (h.desk.submit t request host name).1.results
      unfold Desk.submit
      split
      · obtain ⟨d', deeds, hd', hturned⟩ := h.desk.turnAway_cases t host
        rw [hturned]
        refine List.Subset.trans ?_ (List.subset_cons_self _ _)
        rcases hd' with ⟨rfl, -⟩ | hstep
        · exact List.Subset.refl _
        · rw [show d' = (h.desk.step .cancel).1 from congrArg Prod.fst hstep]
          exact Desk.results_step_subset _ _
      · exact Desk.results_settle_subset _ _ _
  | signal x => exact Desk.results_step_subset h.desk x

theorem results_after_subset (h : History) (ms : List Move) :
    h.desk.results ⊆ (h.after ms).desk.results := by
  induction ms generalizing h with
  | nil => exact List.Subset.refl _
  | cons m ms ih => exact List.Subset.trans (results_next_subset h m) (ih (h.next m))

/-- A request comes to something by being turned away, or the desk is free then. -/
theorem busy_or_free {h : History} {m : Move} {t : Nat} {result : Option Outcome}
    (hopen : h.desk.isSettled t = false) (hsettled : (t, result) ∈ (h.next m).desk.results) :
    (∃ name request host, m = .submit t name request host ∧ h.desk.isBusy = true) ∨
      (h.next m).desk.isBusy = false := by
  have hnew : (t, result) ∉ h.desk.results := by
    intro hmem
    have hany : h.desk.isSettled t = true := List.any_eq_true.2 ⟨_, hmem, beq_self_eq_true t⟩
    rw [hopen] at hany
    cases hany
  cases m with
  | signal x => exact Or.inr ((Desk.mem_results_step hsettled).resolve_left hnew)
  | submit u name request host =>
      cases hbusy : h.desk.isBusy with
      | true =>
          obtain ⟨d', deeds, hd', hturned⟩ := h.desk.turnAway_cases u host
          have hnext : (h.next (.submit u name request host)).desk =
              { d' with results := (u, none) :: d'.results } := by
            simp only [next, Desk.submit, hbusy, if_true, hturned]
          rw [hnext] at hsettled ⊢
          rcases List.mem_cons.1 hsettled with heq | hmem
          · cases heq
            exact Or.inl ⟨name, request, host, rfl, rfl⟩
          · rcases hd' with ⟨rfl, -⟩ | hstep
            · exact absurd hmem hnew
            · have hd : d' = (h.desk.step .cancel).1 := congrArg Prod.fst hstep
              rw [hd] at hmem ⊢
              exact Or.inr ((Desk.mem_results_step hmem).resolve_left hnew)
      | false =>
          have hnext : (h.next (.submit u name request host)).desk =
              (h.desk.settle u (Run.begin h.desk.settings name request host)).1 := by
            simp only [next, Desk.submit, hbusy, Bool.false_eq_true, if_false]
          rw [hnext] at hsettled ⊢
          exact Or.inr ((Desk.mem_results_settle hsettled).resolve_left hnew)

theorem Answered.events_eq {result : Option Outcome} {acts : List Act} (h : Answered result acts) :
    ∃ earlier last, Act.events acts = earlier ++ [last] ∧
      (∀ e ∈ earlier, e.isTerminal = false) ∧
      ((∃ o, result = some o ∧ last = .done o) ∨ (result = none ∧ ∃ m, last = .error m)) := by
  rcases h with h | ⟨rfl, rfl⟩
  · exact h.events_eq
  · exact ⟨[], _, rfl, fun _ h => absurd h List.not_mem_nil, Or.inr ⟨rfl, _, rfl⟩⟩

theorem Answered.follow_eq {result : Option Outcome} {acts : List Act} (h : Answered result acts)
    (j : Log.Journal) : j.follow acts = j := by
  rcases h with h | ⟨rfl, rfl⟩
  · exact Log.Journal.follow_of_complete h j
  · rfl

/-- **A request that comes to something has told its host one event that ends it, and told it
last**, then and ever after: the outcome it came to, or an error if it came to none. With it the
desk is free, unless it was busy and the request turned away, and no name stays bound. -/
theorem settled_with_one_ending {settings : Settings} {before later : List Move} {x : Move}
    {ticket : Nat} {result : Option Outcome} (hd : (Move.tickets (before ++ x :: later)).Nodup)
    (hopen : ((start settings).after before).desk.isSettled ticket = false)
    (hsettled : (ticket, result) ∈ ((start settings).after (before ++ [x])).desk.results) :
    let acts := ((start settings).after (before ++ x :: later)).actsOf ticket
    (∃ earlier last, Act.events acts = earlier ++ [last] ∧
      (∀ e ∈ earlier, e.isTerminal = false) ∧
      ((∃ o, result = some o ∧ last = .done o) ∨ (result = none ∧ ∃ m, last = .error m))) ∧
    ((∃ name request host, x = .submit ticket name request host ∧
        ((start settings).after before).desk.isBusy = true) ∨
      ((start settings).after (before ++ [x])).desk.isBusy = false) ∧
    ∀ j : Log.Journal, j.follow acts = j := by
  intro acts
  have hsound := (sound_start settings).after (before ++ x :: later) hd
  have hnext : (start settings).after (before ++ [x]) = ((start settings).after before).next x :=
    after_append _ _ _
  have hmem : (ticket, result) ∈ ((start settings).after (before ++ x :: later)).desk.results := by
    rw [List.append_cons, after_append]
    exact results_after_subset _ later hsettled
  obtain ⟨-, hanswered⟩ := hsound.settled ticket result hmem
  refine ⟨hanswered.events_eq, ?_, hanswered.follow_eq⟩
  rw [hnext] at hsettled ⊢
  exact busy_or_free hopen hsettled

/-- A request is answered; another one that arrives meanwhile is turned away. -/
theorem settled_beside_another :
    let request : Request := { code := "a = 1".toList, code_filled := by decide }
    let before : List Move :=
      [.submit 0 "first".toList request fun _ => .pass, .signal .resume, .signal .opened,
        .submit 1 "second".toList request fun _ => .pass, .signal (.token (.text "a = 1".toList)),
        .signal .ended, .signal .settled, .signal .resume, .signal .resume]
    let h := (start {}).after (before ++ [.signal .resume])
    ∃ o, (0, some o) ∈ h.desk.results ∧ o.code = "a = 1".toList ∧ h.desk.isBusy = false ∧
      (∃ earlier, Act.events (h.actsOf 0) = earlier ++ [.done o] ∧
        ∀ e ∈ earlier, e.isTerminal = false) ∧
      ∀ j : Log.Journal, j.follow (h.actsOf 0) = j := by
  intro request before h
  have hh : (start {}).after (before ++ [.signal .resume]) = h := rfl
  have hresults : h.desk.results.map (fun entry => (entry.1, entry.2.map Outcome.code)) =
      [(0, some "a = 1".toList), (1, none)] := by
    decide +kernel
  have hspec := fun o => @settled_with_one_ending {} before [] (.signal .resume) 0 (some o)
    (by decide) (by decide +kernel)
  simp only [hh] at hspec
  clear_value h
  obtain ⟨o, hmem, hcode⟩ : ∃ o, (0, some o) ∈ h.desk.results ∧ o.code = "a = 1".toList := by
    have hfirst : (0, some "a = 1".toList) ∈
        h.desk.results.map (fun entry => (entry.1, entry.2.map Outcome.code)) := by
      rw [hresults]
      exact List.mem_cons_self
    obtain ⟨⟨t, result⟩, hmem, heq⟩ := List.mem_map.1 hfirst
    rw [Prod.mk.injEq] at heq
    obtain ⟨o, ho, hcode⟩ := Option.map_eq_some_iff.1 heq.2
    refine ⟨o, ?_, hcode⟩
    rw [← ho, ← heq.1]
    exact hmem
  obtain ⟨⟨earlier, last, hevents, hearlier, hlast⟩, hfree, hfollow⟩ := hspec o hmem
  have hdone : last = .done o := by
    rcases hlast with ⟨o', ho, hlast⟩ | ⟨hnone, -⟩
    · rw [hlast, Option.some.inj ho]
    · exact absurd hnone (Option.some_ne_none o)
  rw [hdone] at hevents
  refine ⟨o, hmem, hcode, ?_, ⟨earlier, hevents, hearlier⟩, hfollow⟩
  rcases hfree with ⟨_, _, _, hsubmit, -⟩ | hfree
  · cases hsubmit
  · exact hfree

end History
end Refinery
