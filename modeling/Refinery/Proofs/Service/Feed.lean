import Refinery.Proofs.Json.Line
import Refinery.Proofs.Session.History
import Refinery.Service.Basic

/-!
The feeds of a service whose callers all read on. Whatever calls arrive meanwhile, and whenever the
feeds get their turns, a feed writes the events of its request in the order in which they are told,
and is closed by the one that ends it. By then the request is settled, so no feed that is closed
cancels the request on its way.
-/

namespace Refinery

namespace Desk

/-- A request under this ticket is settled, or it is the one on its way. -/
def Minds (d : Desk) (t : Nat) : Prop := d.isSettled t = true ∨ ∃ r, d.active = some (t, r)

theorem isSettled_iff {d : Desk} {t : Nat} :
    d.isSettled t = true ↔ ∃ result, (t, result) ∈ d.results := by
  simp [isSettled]

theorem isSettled_mono {d d' : Desk} {t : Nat} (h : d.isSettled t = true)
    (hresults : d.results ⊆ d'.results) : d'.isSettled t = true := by
  obtain ⟨result, hmem⟩ := isSettled_iff.1 h
  exact isSettled_iff.2 ⟨result, hresults hmem⟩

theorem minds_settle (d : Desk) (t : Nat) (r : Run) : (d.settle t r).1.Minds t := by
  cases hover : r.isOver with
  | true =>
      left
      rw [isSettled_iff, (settle_of_isOver d t hover).2]
      exact ⟨_, List.mem_cons_self⟩
  | false => exact Or.inr ⟨_, (settle_of_not_isOver d t hover).1⟩

theorem Minds.step {d : Desk} {t : Nat} (h : d.Minds t) (x : Signal) : (d.step x).1.Minds t := by
  rcases h with h | ⟨r, hr⟩
  · exact Or.inl (isSettled_mono h (results_step_subset d x))
  · rw [Desk.step, hr]
    exact minds_settle d t (r.step x)

theorem Minds.submit {d : Desk} {t : Nat} (h : d.Minds t) (u : Nat) (request : Request)
    (host : Host) (name : Text) : (d.submit u request host name).1.Minds t := by
  unfold Desk.submit
  split
  · obtain ⟨d', deeds, hd', hturned⟩ := d.turnAway_cases u host
    rw [hturned]
    have hkept : d'.Minds t := by
      rcases hd' with ⟨rfl, -⟩ | hstep
      · exact h
      · rw [show d' = (d.step .cancel).1 from congrArg Prod.fst hstep]
        exact h.step .cancel
    rcases hkept with hsettled | hactive
    · exact Or.inl (isSettled_mono hsettled (List.subset_cons_self _ _))
    · exact Or.inr hactive
  · next hfree =>
      rcases h with h | ⟨r, hr⟩
      · exact Or.inl (isSettled_mono h (results_settle_subset d u _))
      · exact absurd (by rw [isBusy, hr]; rfl) hfree

theorem minds_submit (d : Desk) (t : Nat) (request : Request) (host : Host) (name : Text) :
    (d.submit t request host name).1.Minds t := by
  unfold Desk.submit
  split
  · obtain ⟨d', deeds, -, hturned⟩ := d.turnAway_cases t host
    rw [hturned]
    exact Or.inl (isSettled_iff.2 ⟨none, List.mem_cons_self⟩)
  · exact minds_settle d t _

end Desk

/-- The events under a ticket that the desk minds: nothing has ended the request yet, or it is
settled and the last of them has. -/
theorem History.Sound.events_cases {used : List Nat} {h : History} {t : Nat} (hs : Sound used h)
    (ht : h.desk.Minds t) :
    (h.desk.isSettled t = false ∧ ∀ e ∈ Act.events (h.actsOf t), e.isTerminal = false) ∨
    (h.desk.isSettled t = true ∧ ∃ earlier last, Act.events (h.actsOf t) = earlier ++ [last] ∧
      (∀ e ∈ earlier, e.isTerminal = false) ∧ last.isTerminal = true) := by
  rcases ht with hsettled | ⟨r, hr⟩
  · right
    obtain ⟨result, hmem⟩ := Desk.isSettled_iff.1 hsettled
    obtain ⟨earlier, last, hevents, hearlier, hlast⟩ := (hs.settled t result hmem).2.events_eq
    refine ⟨hsettled, earlier, last, hevents, hearlier, ?_⟩
    rcases hlast with ⟨o, -, rfl⟩ | ⟨-, m, rfl⟩ <;> rfl
  · left
    obtain ⟨-, hnew, -, -, hbegun⟩ := hs.active t r hr
    refine ⟨Bool.eq_false_iff.2 fun hsettled => ?_, hbegun.not_isTerminal⟩
    obtain ⟨result, hmem⟩ := Desk.isSettled_iff.1 hsettled
    exact hnew result hmem

namespace Service

theorem Feed.eventsUnder_eq (t : Nat) (deeds : List Deed) :
    eventsUnder t deeds = Act.events (Deed.actsOf t deeds) := by
  induction deeds with
  | nil => rfl
  | cons d deeds ih =>
      rw [← List.singleton_append, Deed.actsOf_append, Act.events_append, ← ih]
      rw [eventsUnder, List.filterMap_append]
      congr 1
      by_cases hticket : d.ticket = t <;> cases hact : d.act <;>
        simp [Deed.actsOf, hticket, hact, Act.events, Act.event?]

/-- A feed has written or has still to write the events of its request, in their order, and it is
closed by the one that ends the request. -/
structure Feed.Faithful (f : Feed) (acts : List Act) : Prop where
  events : f.written ++ f.waiting = Act.events acts
  closed : f.closed = f.written.any Event.isTerminal

theorem Feed.Faithful.deliver {f : Feed} {deeds : List Deed}
    (h : f.Faithful (Deed.actsOf f.ticket deeds)) (more : List Deed) :
    (f.deliver more).Faithful (Deed.actsOf f.ticket (deeds ++ more)) where
  events := by
    rw [Deed.actsOf_append, Act.events_append, ← h.events, ← eventsUnder_eq, List.append_assoc]
    rfl
  closed := h.closed

theorem Feed.ticket_write (f : Feed) : f.write.ticket = f.ticket := by
  unfold write
  split <;> rfl

theorem Feed.Faithful.write {f : Feed} {acts : List Act} (h : f.Faithful acts) :
    f.write.Faithful acts := by
  unfold Feed.write
  split
  · next e later hopen hwaiting =>
      constructor
      · rw [← h.events, hwaiting]
        exact (List.append_cons f.written e later).symm
      · rw [List.any_append, ← h.closed, hopen, List.any_cons, List.any_nil, Bool.or_false,
          Bool.false_or]
  · exact h

/-- The feed of this ticket writes; nobody cancels. -/
def turned (s : Service) (ticket : Nat) : Service :=
  { s with feeds := s.feeds.map fun f => if f.ticket = ticket then f.write else f }

theorem mem_feeds_turned {s : Service} {ticket : Nat} {g : Feed} (h : g ∈ (s.turned ticket).feeds) :
    ∃ f ∈ s.feeds, g.ticket = f.ticket ∧ (g = f ∨ g = f.write) := by
  obtain ⟨f, hf, rfl⟩ := List.mem_map.1 h
  refine ⟨f, hf, ?_⟩
  split
  · exact ⟨f.ticket_write, Or.inr rfl⟩
  · exact ⟨rfl, Or.inl rfl⟩

theorem exists_of_isClosed {s : Service} {ticket : Nat} (h : s.isClosed ticket = true) :
    ∃ f ∈ s.feeds, f.ticket = ticket ∧ f.closed = true := by
  unfold isClosed feed? at h
  cases hfound : s.feeds.find? (·.ticket == ticket) with
  | none =>
      rw [hfound] at h
      cases h
  | some f =>
      rw [hfound] at h
      have hticket := List.find?_some hfound
      exact ⟨f, List.mem_of_find?_eq_some hfound, eq_of_beq hticket, h⟩

/-! ### The course of a service -/

/-- The request that a call hands in. -/
def Call.request? (c : Call) : Option Request :=
  match Route.find c.method c.address with
  | .ok .optimize => (Body.request c.body).toOption
  | _ => none

/-- What happens at a service: a call comes, a signal comes for the request on its way, or a feed
gets its turn. -/
inductive Occasion where
  | call (ticket : Nat) (c : Call)
  | signal (x : Signal)
  | write (ticket : Nat)

/-- The ticket that is given out. -/
def Occasion.ticket? : Occasion → Option Nat
  | .call ticket c => c.request?.map fun _ => ticket
  | _ => none

/-- The tickets of the requests that are handed in. -/
def Occasion.tickets (os : List Occasion) : List Nat := os.filterMap ticket?

/-- A service and all that was done behind it. -/
structure Chronicle where
  service : Service
  deeds : List Deed := []

namespace Chronicle

def start (settings : Settings) : Chronicle := { service := { desk := { settings := settings } } }

/-- What was done is noted. -/
def noting (c : Chronicle) (p : Service × List Deed) : Chronicle := ⟨p.1, c.deeds ++ p.2⟩

def next (c : Chronicle) : Occasion → Chronicle
  | .call ticket call =>
    let (s, deeds, _) := c.service.answer ticket call
    c.noting (s, deeds)
  | .signal x => c.noting (c.service.step x)
  | .write ticket => c.noting (c.service.write ticket)

def after (c : Chronicle) (os : List Occasion) : Chronicle := os.foldl next c

theorem after_cons (c : Chronicle) (o : Occasion) (os : List Occasion) :
    c.after (o :: os) = (c.next o).after os := rfl

/-- A call hands in a request, or cancels the one on its way, or changes nothing. -/
theorem next_call_cases (c : Chronicle) (ticket : Nat) (call : Call) :
    (∃ r, call.request? = some r ∧ c.next (.call ticket call) = c.noting (c.service.post ticket r)) ∨
    (call.request? = none ∧ (c.next (.call ticket call) = c.noting (c.service.step .cancel) ∨
      c.next (.call ticket call) = c)) := by
  have hnothing : c.noting (c.service, []) = c := by rw [noting, List.append_nil]
  cases hroute : Route.find call.method call.address with
  | error why =>
      right
      exact ⟨by simp only [Call.request?, hroute],
        Or.inr (by simp only [next, answer, hroute, hnothing])⟩
  | ok route =>
      cases route with
      | optimize =>
          have hrequest : call.request? = (Body.request call.body).toOption := by
            simp only [Call.request?, hroute]
          cases hbody : Body.request call.body with
          | error why =>
              rw [hbody] at hrequest
              exact Or.inr ⟨hrequest,
                Or.inr (by simp only [next, answer, hroute, hbody, hnothing])⟩
          | ok r =>
              rw [hbody] at hrequest
              exact Or.inl ⟨r, hrequest, by simp only [next, answer, hroute, hbody]⟩
      | cancel =>
          right
          exact ⟨by simp only [Call.request?, hroute],
            Or.inl (by simp only [next, answer, hroute]; rfl)⟩
      | _ =>
          right
          exact ⟨by simp only [Call.request?, hroute],
            Or.inr (by simp only [next, answer, hroute, hnothing])⟩

/-! ### The invariant -/

/-- Each request that was handed in is minded by the desk, and has a feed that follows it. -/
structure Kept (used : List Nat) (c : Chronicle) : Prop where
  sound : History.Sound used ⟨c.service.desk, c.deeds⟩
  minded : ∀ t ∈ used, c.service.desk.Minds t
  tickets : c.service.feeds.map Feed.ticket = used
  feeds : ∀ f ∈ c.service.feeds, f.Faithful (Deed.actsOf f.ticket c.deeds)

variable {used : List Nat} {c : Chronicle} {f : Feed}

theorem kept_start (settings : Settings) : Kept [] (start settings) where
  sound := History.sound_start settings
  minded _ h := absurd h List.not_mem_nil
  tickets := rfl
  feeds _ h := absurd h List.not_mem_nil

theorem Kept.minds (h : Kept used c) (hf : f ∈ c.service.feeds) : c.service.desk.Minds f.ticket :=
  h.minded _ (h.tickets ▸ List.mem_map_of_mem hf)

/-- A feed is closed when it has written all events of a settled request. -/
theorem Kept.closed_iff (h : Kept used c) (hf : f ∈ c.service.feeds) :
    f.closed = true ↔ c.service.desk.isSettled f.ticket = true ∧ f.waiting = [] := by
  have hevents := (h.feeds f hf).events
  rw [(h.feeds f hf).closed, List.any_eq_true]
  rcases h.sound.events_cases (h.minds hf) with ⟨hopen, hnone⟩ | ⟨hsettled, earlier, last, hlast⟩
  · constructor
    · rintro ⟨e, he, hterminal⟩
      have hmem : e ∈ Act.events (Deed.actsOf f.ticket c.deeds) :=
        hevents ▸ List.mem_append_left _ he
      exact absurd ((hnone e hmem).symm.trans hterminal) Bool.false_ne_true
    · rintro ⟨hsettled, -⟩
      exact absurd (hopen.symm.trans hsettled) Bool.false_ne_true
  · obtain ⟨heq, hearlier, hterminal⟩ := hlast
    have hall : f.written ++ f.waiting = earlier ++ [last] := hevents.trans heq
    constructor
    · rintro ⟨e, he, hends⟩
      refine ⟨hsettled, ?_⟩
      -- an event that waits behind the last one would be one of the earlier ones
      rcases List.eq_nil_or_concat f.waiting with hnil | ⟨front, back, hwaiting⟩
      · exact hnil
      · rw [hwaiting, List.concat_eq_append, ← List.append_assoc] at hall
        have hfront := (List.append_inj' hall rfl).1
        have hmem : e ∈ earlier := hfront ▸ List.mem_append_left _ he
        exact absurd ((hearlier e hmem).symm.trans hends) Bool.false_ne_true
    · rintro ⟨-, hnil⟩
      rw [hnil, List.append_nil] at hall
      exact ⟨last, by rw [hall]; simp, hterminal⟩

/-- What a closed feed has written are the events of its request. -/
theorem Kept.text_eq (h : Kept used c) (hf : f ∈ c.service.feeds) (hclosed : f.closed = true) :
    f.text = (Act.events (Deed.actsOf f.ticket c.deeds)).flatMap
      fun e => e.toJson.print ++ ['\n'] := by
  rw [f.text_eq, ← (h.feeds f hf).events, ((h.closed_iff hf).1 hclosed).2, List.append_nil]

theorem Kept.turned (h : Kept used c) (ticket : Nat) :
    Kept used ⟨c.service.turned ticket, c.deeds⟩ where
  sound := h.sound
  minded := h.minded
  tickets := by
    rw [← h.tickets, Service.turned, List.map_map]
    refine List.map_congr_left fun f _ => ?_
    show (if f.ticket = ticket then f.write else f).ticket = f.ticket
    split
    · exact f.ticket_write
    · rfl
  feeds g hg := by
    obtain ⟨f, hf, hticket, hcases⟩ := mem_feeds_turned hg
    rw [hticket]
    rcases hcases with rfl | rfl
    · exact h.feeds g hf
    · exact (h.feeds f hf).write

/-- **A feed that is closed cancels nobody**, since its request is settled by then. -/
theorem Kept.write_eq (h : Kept used c) (ticket : Nat) :
    c.service.write ticket = (c.service.turned ticket, []) ∧
      ((c.service.turned ticket).isClosed ticket = true →
        c.service.desk.isSettled ticket = true) := by
  have hsettled : (c.service.turned ticket).isClosed ticket = true →
      c.service.desk.isSettled ticket = true := by
    intro hclosed
    obtain ⟨g, hg, rfl, hover⟩ := exists_of_isClosed hclosed
    exact (((h.turned g.ticket).closed_iff hg).1 hover).1
  refine ⟨?_, hsettled⟩
  show (if (c.service.turned ticket).isClosed ticket && !c.service.isClosed ticket then
      (c.service.turned ticket).putAway ticket else (c.service.turned ticket, [])) = _
  split
  · next hcond =>
      have hover := hsettled (Bool.and_eq_true_iff.1 hcond).1
      rw [putAway, if_pos (show (c.service.turned ticket).desk.isSettled ticket = true from hover)]
  · rfl

/-- The desk takes a step, and the feeds queue what it tells. -/
theorem Kept.withDesk {more : List Nat} {s : Service} {p : Desk × List Deed}
    (hfeeds : ∀ f ∈ s.feeds, f.Faithful (Deed.actsOf f.ticket c.deeds))
    (htickets : s.feeds.map Feed.ticket = more)
    (hsound : History.Sound more ⟨p.1, c.deeds ++ p.2⟩) (hminded : ∀ t ∈ more, p.1.Minds t) :
    Kept more (c.noting (s.withDesk p)) where
  sound := hsound
  minded := hminded
  tickets := by
    rw [← htickets]
    exact List.map_map
  feeds g hg := by
    obtain ⟨f, hf, rfl⟩ := List.mem_map.1 hg
    exact (hfeeds f hf).deliver p.2

theorem Kept.step (h : Kept used c) (x : Signal) : Kept used (c.noting (c.service.step x)) :=
  Kept.withDesk h.feeds h.tickets (h.sound.signal x) fun t ht => (h.minded t ht).step x

theorem Kept.post (h : Kept used c) {ticket : Nat} (hticket : ticket ∉ used) (r : Request) :
    Kept (used ++ [ticket]) (c.noting (c.service.post ticket r)) := by
  refine Kept.withDesk (fun f hf => ?_) (by rw [List.map_append, h.tickets]; rfl)
    (h.sound.submit hticket _ r listener) fun t ht => ?_
  · rcases List.mem_append.1 hf with hf | hf
    · exact h.feeds f hf
    · obtain rfl := List.mem_singleton.1 hf
      have hnone : Deed.actsOf ticket c.deeds = [] := h.sound.actsOf_eq_nil hticket
      exact ⟨by rw [hnone]; rfl, rfl⟩
  · rcases List.mem_append.1 ht with ht | ht
    · exact (h.minded t ht).submit ticket r listener _
    · obtain rfl := List.mem_singleton.1 ht
      exact Desk.minds_submit _ _ r listener _

theorem Kept.write (h : Kept used c) (ticket : Nat) :
    c.next (.write ticket) = ⟨c.service.turned ticket, c.deeds⟩ := by
  rw [next, (h.write_eq ticket).1, noting, List.append_nil]

/-- **One occasion preserves it.** -/
theorem Kept.next (h : Kept used c) (o : Occasion)
    (ho : ∀ ticket, o.ticket? = some ticket → ticket ∉ used) :
    Kept (used ++ o.ticket?.toList) (c.next o) := by
  cases o with
  | call ticket call =>
      rcases c.next_call_cases ticket call with ⟨r, hr, hnext⟩ | ⟨hnone, hnext⟩
      · have hticket : (Occasion.call ticket call).ticket? = some ticket := by
          rw [Occasion.ticket?, hr]
          rfl
        rw [hnext, hticket]
        exact h.post (ho ticket hticket) r
      · have hticket : (Occasion.call ticket call).ticket? = none := by
          rw [Occasion.ticket?, hnone]
          rfl
        rw [hticket, Option.toList_none, List.append_nil]
        rcases hnext with hnext | hnext
        · rw [hnext]
          exact h.step .cancel
        · rwa [hnext]
  | signal x =>
      rw [show used ++ (Occasion.signal x).ticket?.toList = used from List.append_nil used]
      exact h.step x
  | write ticket =>
      rw [show used ++ (Occasion.write ticket).ticket?.toList = used from List.append_nil used,
        h.write ticket]
      exact h.turned ticket

theorem tickets_cons (o : Occasion) (os : List Occasion) :
    Occasion.tickets (o :: os) = o.ticket?.toList ++ Occasion.tickets os := by
  unfold Occasion.tickets
  rw [List.filterMap_cons]
  cases o.ticket? <;> rfl

/-- It holds whatever happens, if different tickets are given out. -/
theorem Kept.after (h : Kept used c) (os : List Occasion)
    (hd : (used ++ Occasion.tickets os).Nodup) :
    Kept (used ++ Occasion.tickets os) (c.after os) := by
  induction os generalizing used c with
  | nil =>
      have hnil : used ++ Occasion.tickets [] = used := List.append_nil used
      rwa [hnil]
  | cons o os ih =>
      rw [tickets_cons, ← List.append_assoc] at hd ⊢
      refine ih (h.next o fun ticket hticket hmem => ?_) hd
      have hused := (List.nodup_append.1 (List.nodup_append.1 hd).1).2.2
      rw [hticket] at hused
      exact hused ticket hmem ticket (List.mem_singleton.2 rfl) rfl

/-- The feed of a settled request is closed when it has had its turns. -/
theorem Kept.closes (h : Kept used c) (hf : f ∈ c.service.feeds)
    (hsettled : c.service.desk.isSettled f.ticket = true) :
    ∃ g ∈ (c.after (List.replicate f.waiting.length (.write f.ticket))).service.feeds,
      g.ticket = f.ticket ∧ g.closed = true ∧
        g.text = (Act.events (Deed.actsOf f.ticket c.deeds)).flatMap
          fun e => e.toJson.print ++ ['\n'] := by
  generalize hn : f.waiting.length = n
  induction n generalizing c f with
  | zero =>
      have hclosed : f.closed = true :=
        (h.closed_iff hf).2 ⟨hsettled, List.length_eq_zero_iff.1 hn⟩
      exact ⟨f, hf, rfl, hclosed, h.text_eq hf hclosed⟩
  | succ n ih =>
      obtain ⟨e, later, hwaiting⟩ := List.exists_cons_of_length_eq_add_one hn
      have hopen : f.closed = false := by
        refine Bool.eq_false_iff.2 fun hclosed => ?_
        rw [((h.closed_iff hf).1 hclosed).2] at hwaiting
        cases hwaiting
      have hwrite : f.write.waiting = later := by simp only [Feed.write, hopen, hwaiting]
      have hmem : f.write ∈ (c.service.turned f.ticket).feeds :=
        List.mem_map.2 ⟨f, hf, if_pos rfl⟩
      have hlength : f.write.waiting.length = n := by
        rw [hwrite]
        rwa [hwaiting, List.length_cons, Nat.add_right_cancel_iff] at hn
      rw [List.replicate_succ, after_cons, h.write f.ticket, ← f.ticket_write]
      rw [← f.ticket_write] at hsettled
      exact ih (h.turned _) (by rwa [f.ticket_write]) hsettled hlength

theorem post_of_isBusy {s : Service} (h : s.desk.isBusy = true) (ticket : Nat) (r : Request) :
    (s.post ticket r).1.desk.active = s.desk.active ∧
      (s.post ticket r).1.desk.phase = s.desk.phase ∧
      (s.post ticket r).2 = [⟨ticket, .event (.error Desk.busyText)⟩] := by
  have hturned : s.desk.submit ticket r listener = ({ s.desk with
      results := (ticket, none) :: s.desk.results }, [⟨ticket, .event (.error Desk.busyText)⟩]) := by
    rw [Desk.submit, if_pos h]
    rfl
  simp only [Service.post, hturned]
  exact ⟨rfl, rfl, rfl⟩

/-- **Every body is the lines of its request's events, and no feed cancels.** Whatever calls arrive
and whichever feeds get their turns meanwhile: there is one feed for each request that was handed in;
it has written the events of its request from the first one on, each as an object of JSON on a line
of its own, and has the others still to write; it is closed when the request is settled and all of
them are written, of which then the last one ends the request and no other does. The feed of a
settled request gets there by its own turns. No feed's turn does anything but write, since the
request of a feed that is closed is settled; and a request that is turned away leaves the one on its
way, and the phase, as they are. -/
theorem feeds_written {settings : Settings} {os : List Occasion}
    (hd : (Occasion.tickets os).Nodup) :
    let c := (start settings).after os
    c.service.feeds.map Feed.ticket = Occasion.tickets os ∧
    (∀ f ∈ c.service.feeds,
      let events := Act.events (Deed.actsOf f.ticket c.deeds)
      f.written ++ f.waiting = events ∧
      (f.closed = true ↔ c.service.desk.isSettled f.ticket = true ∧ f.waiting = []) ∧
      (f.closed = true → f.text = events.flatMap (fun e => e.toJson.print ++ ['\n']) ∧
        Text.lines f.text = events.map (fun e => e.toJson.print) ++ [[]] ∧
        ∃ earlier last, events = earlier ++ [last] ∧ (∀ e ∈ earlier, e.isTerminal = false) ∧
          last.isTerminal = true) ∧
      (c.service.desk.isSettled f.ticket = true →
        ∃ g ∈ (c.after (List.replicate f.waiting.length (.write f.ticket))).service.feeds,
          g.ticket = f.ticket ∧ g.closed = true ∧
            g.text = events.flatMap fun e => e.toJson.print ++ ['\n'])) ∧
    (∀ ticket, c.service.write ticket = (c.service.turned ticket, []) ∧
      ((c.service.turned ticket).isClosed ticket = true →
        c.service.desk.isSettled ticket = true)) ∧
    (∀ ticket call, call.request?.isSome = true → c.service.desk.isBusy = true →
      let c' := c.next (.call ticket call)
      c'.service.desk.active = c.service.desk.active ∧
        c'.service.desk.phase = c.service.desk.phase ∧
        c'.deeds = c.deeds ++ [⟨ticket, .event (.error Desk.busyText)⟩]) := by
  intro c
  have hkept : Kept (Occasion.tickets os) c := (kept_start settings).after os hd
  refine ⟨hkept.tickets, fun f hf => ?_, hkept.write_eq, fun ticket call hcall hbusy => ?_⟩
  · refine ⟨(hkept.feeds f hf).events, hkept.closed_iff hf, fun hclosed => ?_, hkept.closes hf⟩
    have htext := hkept.text_eq hf hclosed
    refine ⟨htext, ?_, ?_⟩
    · rw [htext]
      exact Json.lines_flatMap_print Event.toJson _
    rcases hkept.sound.events_cases (hkept.minds hf) with ⟨hopen, -⟩ | ⟨-, hlast⟩
    · have hsettled := ((hkept.closed_iff hf).1 hclosed).1
      exact absurd (hopen.symm.trans hsettled) Bool.false_ne_true
    · exact hlast
  · rcases c.next_call_cases ticket call with ⟨r, -, hnext⟩ | ⟨hnone, -⟩
    · obtain ⟨hactive, hphase, hdeeds⟩ := post_of_isBusy hbusy ticket r
      rw [hnext]
      exact ⟨hactive, hphase, congrArg (c.deeds ++ ·) hdeeds⟩
    · rw [hnone] at hcall
      cases hcall

/-- A request is turned away while another is on its way, its feed is closed, and the other request
comes to its end; after that its feed is closed by its turns. -/
theorem feeds_written_of_two_requests :
    let post : Call := ⟨"POST".toList, "/optimize".toList, "\x7b\"code\": \"a = 1\"\x7d".toList⟩
    let status : Call := ⟨"GET".toList, "/optimize/status".toList, []⟩
    let cancel : Call := ⟨"POST".toList, "/optimize/cancel".toList, []⟩
    let os : List Occasion :=
      [.call 0 post, .signal .resume, .write 0, .call 1 post, .write 1, .signal .opened,
        .call 2 status, .signal (.token (.text "a = 1".toList)), .signal .ended, .signal .settled,
        .write 1, .signal .resume, .signal .resume, .signal .resume, .call 3 cancel]
    let c := (start {}).after os
    (Occasion.tickets os).Nodup ∧ c.service.feeds.map Feed.ticket = [0, 1] ∧
    (∃ f ∈ c.service.feeds, f.closed = true ∧
      f.text = ("\x7b\"type\": \"error\", " ++
        "\"value\": \"Optimization already in progress.\"\x7d\n").toList) ∧
    (∃ f ∈ c.service.feeds, f.closed = false ∧ f.waiting.length = 7 ∧
      ∃ g ∈ (c.after (List.replicate 7 (.write f.ticket))).service.feeds, g.ticket = f.ticket ∧
        g.closed = true) ∧
    ∀ ticket, c.service.write ticket = (c.service.turned ticket, []) := by
  intro post status cancel os c
  have htickets : Occasion.tickets os = [0, 1] := by decide +kernel
  have hd : (Occasion.tickets os).Nodup := by
    rw [htickets]
    decide
  have hfeeds : c.service.feeds.map (fun f => (f.ticket, f.closed, f.waiting.length)) =
      [(0, false, 7), (1, true, 0)] := by
    decide +kernel
  have hsettled : c.service.desk.isSettled 0 = true := by decide +kernel
  have hbusy : (Act.events (Deed.actsOf 1 c.deeds)).flatMap (fun e => e.toJson.print ++ ['\n']) =
      ("\x7b\"type\": \"error\", " ++
        "\"value\": \"Optimization already in progress.\"\x7d\n").toList := by
    decide +kernel
  obtain ⟨hgiven, hall, hwrite, -⟩ := @feeds_written {} os hd
  have hc : (start {}).after os = c := rfl
  rw [hc] at hgiven
  simp only [hc] at hall hwrite
  clear_value c
  obtain ⟨f, g, hlist⟩ : ∃ f g, c.service.feeds = [f, g] :=
    List.length_eq_two.1 (by rw [← List.length_map, hfeeds]; rfl)
  simp only [hlist, List.map_cons, List.map_nil, List.cons.injEq, Prod.mk.injEq, and_true] at hfeeds
  obtain ⟨⟨hf, hopen, hlength⟩, hg, hclosed, -⟩ := hfeeds
  have hmem : f ∈ c.service.feeds := hlist ▸ List.mem_cons_self
  have hmem' : g ∈ c.service.feeds := hlist ▸ List.mem_cons_of_mem f List.mem_cons_self
  have htext := ((hall g hmem').2.2.1 hclosed).1
  rw [hg, hbusy] at htext
  obtain ⟨-, -, -, hcloses⟩ := hall f hmem
  rw [hf] at hcloses
  obtain ⟨g', hg', hticket, hlater, -⟩ := hcloses hsettled
  rw [hlength] at hg'
  exact ⟨hd, hgiven.trans htickets, ⟨g, hmem', hclosed, htext⟩,
    ⟨f, hmem, hopen, hlength, g', by rwa [hf], by rw [hticket, hf], hlater⟩,
    fun ticket => (hwrite ticket).1⟩

end Chronicle
end Service
end Refinery
