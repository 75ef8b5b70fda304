import Refinery.Proofs.Session.Frame
import Refinery.Proofs.Session.Transcript

/-!
Handles are released. A handle that the engine has handed over is told to stop before the call that
got it is over, and the request does not keep it; whether handles fail then makes no difference.
-/

namespace Refinery

namespace Scene

variable {s s' : Scene} {e : Event} {failure : Option Failure}

/-- Telling the host something leaves the handle where it is. -/
theorem handle_of_emit (h : s.emit e = (s', failure)) : s'.context.handle = s.context.handle := by
  have hhandle := handle_emit s e
  rwa [h] at hhandle

theorem calls_of_emit (h : s.emit e = (s', failure)) : s'.calls = s.calls := by
  have hcalls := calls_emit s e
  rwa [h] at hcalls

end Scene

namespace Generation

variable {settings : Settings} {g : Generation} {s : Scene}

/-- Whether the engine has not handed over the handle yet. -/
def awaitsHandle (g : Generation) : Bool :=
  match g.reader with
  | .entered => true
  | .opening => true
  | _ => false

/-- What a reader comes to, and its scene, with the handle where it was. -/
structure Keeps (g : Generation) (s : Scene) (p : Generation × Scene) : Prop where
  number : p.1.number = g.number
  reader : p.1.awaitsHandle = true → p.1.reader = g.reader
  handle : p.2.context.handle = s.context.handle
  calls : p.2.calls = s.calls

theorem awaitsHandle_congr {g g' : Generation} (h : g'.reader = g.reader) :
    g'.awaitsHandle = g.awaitsHandle := by
  rw [awaitsHandle, awaitsHandle, h]

/-- A handle that is there is not waited for again. -/
theorem Keeps.received {p : Generation × Scene} (h : Keeps g s p) (hg : g.awaitsHandle = false) :
    p.1.awaitsHandle = false := by
  refine Bool.eq_false_iff.2 fun hawaits => ?_
  rw [awaitsHandle_congr (h.reader hawaits), hg] at hawaits
  cases hawaits

theorem Keeps.refl (g : Generation) (s : Scene) : Keeps g s (g, s) := ⟨rfl, fun _ => rfl, rfl, rfl⟩

theorem keeps_finish (g : Generation) (s : Scene) (failure : Option Failure) :
    Keeps g s (g.finish failure, s) := ⟨rfl, nofun, rfl, rfl⟩

theorem keeps_emit {s' : Scene} {e : Event} {failure : Option Failure}
    (h : s.emit e = (s', failure)) (g : Generation) : Keeps g s (g, s') :=
  ⟨rfl, fun _ => rfl, Scene.handle_of_emit h, Scene.calls_of_emit h⟩

/-- A reader that is put away waits for nothing. -/
theorem Keeps.finish {g' : Generation} {s' : Scene} (h : Keeps g s (g', s'))
    (failure : Option Failure) : Keeps g s (g'.finish failure, s') :=
  ⟨h.number, nofun, h.handle, h.calls⟩

theorem Keeps.rest {p : Generation × Scene} (h : Keeps g s p) (settings : Settings) :
    Keeps g s (p.1.rest settings, p.2) := by
  unfold Generation.rest
  split
  · exact h
  · split
    · exact h.finish _
    · split
      · exact ⟨h.number, h.reader, h.handle, h.calls⟩
      · exact h

theorem keeps_flush (g : Generation) (s : Scene) : Keeps g s (g.flush s) := by
  unfold flush
  cases Inference.Fragment.join 0 g.preview with
  | error why => exact keeps_finish g s _
  | ok t =>
      simp only
      split
      · next heq => exact (keeps_emit heq g).finish _
      · next heq =>
          have hkeeps := keeps_emit heq g
          exact ⟨rfl, fun _ => rfl, hkeeps.handle, hkeeps.calls⟩

theorem keeps_extend (flushChars : Int) (g : Generation) (s : Scene) (f : Inference.Fragment) :
    Keeps g s (g.extend flushChars s f) := by
  unfold extend
  cases f.size with
  | error why => exact keeps_finish g s _
  | ok n =>
      simp only
      split
      · have hflush := keeps_flush
          { g with preview := g.preview ++ [f], previewSize := g.previewSize + n } s
        exact ⟨hflush.number, hflush.reader, hflush.handle, hflush.calls⟩
      · exact ⟨rfl, fun _ => rfl, rfl, rfl⟩

theorem keeps_token (settings : Settings) (g : Generation) (s : Scene) (f : Inference.Fragment) :
    Keeps g s (g.token settings s f) := by
  unfold token
  split
  · exact keeps_finish g s _
  · have hfirst : ∀ s' failure,
        (if g.count = 0 then s.emit .streamActive else (s, none)) = (s', failure) →
          Keeps g s (g, s') := by
      intro s' failure heq
      split at heq
      · exact keeps_emit heq g
      · cases heq
        exact Keeps.refl g s
    simp only
    split
    · next s' why heq =>
        have hkeeps := hfirst s' _ heq
        exact ⟨rfl, nofun, hkeeps.handle, hkeeps.calls⟩
    · next s' heq =>
        have hkeeps := hfirst s' _ heq
        have hextend := keeps_extend settings.flushChars
          { g with output := g.output ++ f.asText, count := g.count + 1 } s' f
        have htaken : Keeps g s _ := ⟨hextend.number, hextend.reader,
          hextend.handle.trans hkeeps.handle, hextend.calls.trans hkeeps.calls⟩
        exact htaken.rest settings

theorem keeps_ended (g : Generation) (s : Scene) : Keeps g s (g.ended s) := by
  unfold ended
  have hsent : Keeps g s (if g.preview.isEmpty then (g, s) else g.flush s) := by
    split
    · exact Keeps.refl g s
    · exact keeps_flush g s
  generalize (if g.preview.isEmpty then (g, s) else g.flush s) = sent at hsent
  obtain ⟨g', s'⟩ := sent
  simp only
  split
  · exact hsent
  · exact ⟨hsent.number, nofun, hsent.handle, hsent.calls⟩

/-- What a reader comes to, and its scene, where the engine has just handed the handle over. -/
structure Receives (g : Generation) (s : Scene) (p : Generation × Scene) : Prop where
  opening : g.reader = .opening
  number : p.1.number = g.number
  received : p.1.awaitsHandle = false
  handle : p.2.context.handle = some g.number
  calls : p.2.calls = s.calls

/-- **A signal hands the handle over, or it stays where it is.** -/
theorem Reads.handle_cases {x : Signal} {handed : List Entry} {p : Generation × Scene}
    (h : g.Reads settings s x handed p) : (handed = [.handle g.number] ∧ Receives g s p) ∨
      ((∀ n, .handle n ∉ handed) ∧ Keeps g s p) := by
  cases h with
  | opens hreader _ => exact .inl ⟨rfl, hreader, rfl, rfl, rfl, rfl⟩
  | opensInVain hreader _ => exact .inl ⟨rfl, hreader, rfl, rfl, rfl, rfl⟩
  | takes _ f => exact .inr ⟨by simp, keeps_token settings g s f⟩
  | ends _ => exact .inr ⟨fun _ => List.not_mem_nil, keeps_ended g s⟩
  | fails _ why => exact .inr ⟨fun _ => List.not_mem_nil, keeps_finish g s _⟩
  | settles _ => exact .inr ⟨fun _ => List.not_mem_nil, keeps_finish g s _⟩
  | expires => exact .inr ⟨fun _ => List.not_mem_nil, rfl, fun _ => rfl, rfl, rfl⟩
  | cancels =>
      exact .inr ⟨fun _ => List.not_mem_nil, rfl, fun _ => rfl, Scene.handle_cancel s,
        Scene.calls_cancel s⟩
  | waits _ => exact .inr ⟨fun _ => List.not_mem_nil, Keeps.refl g s⟩

end Generation

/-! ### Ladders -/

namespace Ladder

variable {settings : Settings} {l : Ladder} {s : Scene} {n : Nat}

/-- The call of a number is going on and waits for the engine. -/
def Asks (l : Ladder) (n : Nat) : Prop :=
  ∃ g, l.course = .running g ∧ g.reader = .opening ∧ g.number = n

/-- The call of a number is going on, and the request has its handle. -/
def Holds (l : Ladder) (s : Scene) (n : Nat) : Prop :=
  ∃ g, l.course = .running g ∧ g.awaitsHandle = false ∧ g.number = n ∧ s.context.handle = some n

/-- The request has no handle but that of a call that is going on. -/
def Free (l : Ladder) (s : Scene) : Prop :=
  s.context.handle = none ∨ ∃ g, l.course = .running g ∧ g.awaitsHandle = false

/-- What a ladder comes to, and its scene, where the engine hands the handle of a number over. -/
structure Receives (l : Ladder) (s : Scene) (n : Nat) (p : Ladder × Scene) : Prop where
  asks : l.Asks n
  holds : p.1.Holds p.2 n
  calls : p.2.calls = s.calls

/-- What a ladder comes to, and its scene, where the engine hands no handle over. -/
structure Passes (l : Ladder) (s : Scene) (p : Ladder × Scene) : Prop where
  calls : s.calls ≤ p.2.calls
  asks : ∀ n, p.1.Asks n → l.Asks n ∨ (n = s.calls ∧ s.calls < p.2.calls)
  holds : ∀ n, l.Holds s n → p.1.Holds p.2 n ∨ p.2.acts = .stop n :: s.acts
  free : l.Free s → p.1.Free p.2

theorem Asks.not_holds (h : l.Asks n) (s : Scene) (m : Nat) : ¬ l.Holds s m := by
  obtain ⟨g, hcourse, hreader, -⟩ := h
  rintro ⟨g', hcourse', hawaits, -⟩
  cases hcourse.symm.trans hcourse'
  rw [Generation.awaitsHandle, hreader] at hawaits
  cases hawaits

theorem not_holds_of_not_running (h : ∀ g, l.course ≠ .running g) (s : Scene) (n : Nat) :
    ¬ l.Holds s n := fun ⟨g, hcourse, _⟩ => h g hcourse

theorem Free.handle_eq_none (h : l.Free s) (hl : ∀ g, l.course ≠ .running g) :
    s.context.handle = none :=
  h.resolve_right fun ⟨g, hcourse, _⟩ => hl g hcourse

/-- The engine is called: no handle was there, and one is waited for. -/
theorem passes_start {g : Generation} (hcourse : l.course = .running g)
    (hreader : g.reader = .entered) : l.Passes s
      ({ l with course := .running (g.start s).1 }, (g.start s).2) := by
  have hawaits : g.awaitsHandle = true := by rw [Generation.awaitsHandle, hreader]
  refine ⟨Nat.le_succ _, ?_, ?_, ?_⟩
  · rintro n ⟨g', hcourse', -, rfl⟩
    cases hcourse'
    exact .inr ⟨rfl, Nat.lt_succ_self _⟩
  · rintro n ⟨g', hcourse', hreceived, -⟩
    cases hcourse.symm.trans hcourse'
    rw [hawaits] at hreceived
    cases hreceived
  · rintro (hnone | ⟨g', hcourse', hreceived⟩)
    · exact .inl hnone
    · cases hcourse.symm.trans hcourse'
      rw [hawaits] at hreceived
      cases hreceived

/-- A call is over: its handle is given away and told to stop. -/
theorem passes_release (result : Except Failure Text) :
    l.Passes s ({ l with course := .closing result }, s.release) := by
  refine ⟨Nat.le_of_eq (Scene.calls_release s).symm, ?_, ?_, ?_⟩
  · rintro n ⟨g, hcourse, -⟩
    cases hcourse
  · rintro n ⟨-, -, -, -, hhandle⟩
    right
    rw [Scene.release, Context.detach, hhandle]
    rfl
  · exact fun _ => .inl (Scene.handle_release s)

theorem passes_refl (l : Ladder) (s : Scene) : l.Passes s (l, s) :=
  ⟨Nat.le_refl _, fun _ => .inl, fun _ => .inl, id⟩

/-- A call that is going on stays with the handle that it has. -/
theorem passes_of_keeps {g : Generation} (hcourse : l.course = .running g)
    {p : Generation × Scene} (h : g.Keeps s p) :
    l.Passes s ({ l with course := .running p.1 }, p.2) := by
  refine ⟨Nat.le_of_eq h.calls.symm, ?_, ?_, ?_⟩
  · rintro n ⟨g', hcourse', hreader, rfl⟩
    cases hcourse'
    have hawaits : p.1.awaitsHandle = true := by rw [Generation.awaitsHandle, hreader]
    exact .inl ⟨g, hcourse, (h.reader hawaits).symm.trans hreader, h.number.symm⟩
  · rintro n ⟨g', hcourse', hreceived, rfl, hhandle⟩
    cases hcourse.symm.trans hcourse'
    exact .inl ⟨p.1, rfl, h.received hreceived, h.number, h.handle.trans hhandle⟩
  · rintro (hnone | ⟨g', hcourse', hreceived⟩)
    · exact .inl (h.handle.trans hnone)
    · cases hcourse.symm.trans hcourse'
      exact .inr ⟨p.1, rfl, h.received hreceived⟩

/-- Between calls there is no handle to look after. -/
theorem passes_of_not_running {p : Ladder × Scene} (h : ∀ g, l.course ≠ .running g)
    (hreader : ∀ g, p.1.course = .running g → g.reader = .entered)
    (hhandle : p.2.context.handle = s.context.handle) (hcalls : p.2.calls = s.calls) :
    l.Passes s p := by
  refine ⟨Nat.le_of_eq hcalls.symm, ?_, ?_, ?_⟩
  · rintro n ⟨g, hcourse, hopening, -⟩
    rw [hreader g hcourse] at hopening
    cases hopening
  · exact fun n hholds => absurd hholds (not_holds_of_not_running h s n)
  · exact fun hfree => .inl (hhandle.trans (hfree.handle_eq_none h))

theorem finish_ne_running {r : Except Failure Text} {g : Generation} :
    (l.finish r).course ≠ .running g := nofun

theorem enter_running {g : Generation} (h : (l.enter s).course = .running g) :
    g.reader = .entered := by
  unfold enter at h
  split at h
  · cases h
  · cases h
    rfl

theorem passes_proceed {result : Except Failure Text} (hcourse : l.course = .closing result) :
    l.Passes s (l.proceed s result) := by
  have hrunning : ∀ g, l.course ≠ .running g := fun g h => by cases hcourse.symm.trans h
  have hfinish : ∀ r, l.Passes s (l.finish r, s) := fun r =>
    passes_of_not_running hrunning (fun g hg => absurd hg finish_ne_running) rfl rfl
  unfold proceed
  split
  · exact hfinish _
  · exact hfinish _
  · split
    · exact hfinish _
    · exact hfinish _
    · split
      · next heq =>
          exact passes_of_not_running hrunning (fun g hg => absurd hg finish_ne_running)
            (Scene.handle_of_emit heq) (Scene.calls_of_emit heq)
      · next heq =>
          exact passes_of_not_running hrunning (fun g hg => enter_running hg)
            (Scene.handle_of_emit heq) (Scene.calls_of_emit heq)

theorem passes_turn {g : Generation} (hcourse : l.course = .running g) :
    l.Passes s (l.turn settings s g) := by
  unfold turn
  split
  · next hreader => exact passes_start hcourse hreader
  · split
    · exact passes_refl l s
    · exact passes_release _

/-- **A step hands the handle over that is waited for, or passes the one that is there on.** -/
theorem Goes.handle_cases {x : Signal} {handed : List Entry} {p : Ladder × Scene}
    (h : l.Goes settings s x handed p) : (∃ n, handed = [.handle n] ∧ l.Receives s n p) ∨
      ((∀ n, .handle n ∉ handed) ∧ l.Passes s p) := by
  cases h with
  | turns hcourse => exact .inr ⟨fun _ => List.not_mem_nil, passes_turn hcourse⟩
  | @reads g _ _ _ hcourse h =>
      rcases h.handle_cases with ⟨rfl, hreceives⟩ | ⟨hnone, hkeeps⟩
      · exact .inl ⟨g.number, rfl, ⟨g, hcourse, hreceives.opening, rfl⟩,
          ⟨_, rfl, hreceives.received, hreceives.number, hreceives.handle⟩, hreceives.calls⟩
      · exact .inr ⟨hnone, passes_of_keeps hcourse hkeeps⟩
  | proceeds hcourse => exact .inr ⟨fun _ => List.not_mem_nil, passes_proceed hcourse⟩
  | cancels hcourse =>
      exact .inr ⟨fun _ => List.not_mem_nil, passes_of_not_running hcourse
        (fun g h => absurd h (hcourse g)) (Scene.handle_cancel s) (Scene.calls_cancel s)⟩
  | waits _ _ => exact .inr ⟨fun _ => List.not_mem_nil, passes_refl l s⟩

end Ladder

/-- The handles that are handed over among some entries. -/
def Entry.handle? : Entry → Option Nat
  | handle n => some n
  | _ => none

def Entry.handles (entries : List Entry) : List Nat := entries.filterMap handle?

@[simp] theorem Entry.handles_append (as bs : List Entry) :
    handles (as ++ bs) = handles as ++ handles bs := List.filterMap_append

@[simp] theorem Entry.handles_map_act (acts : List Act) : handles (acts.map act) = [] := by
  rw [handles, List.filterMap_map]
  exact List.filterMap_eq_nil_iff.2 fun _ _ => rfl

theorem Entry.mem_handles {n : Nat} {entries : List Entry} :
    n ∈ handles entries ↔ .handle n ∈ entries := by
  refine List.mem_filterMap.trans ⟨?_, fun h => ⟨_, h, rfl⟩⟩
  rintro ⟨e, he, hn⟩
  cases e with
  | handle m =>
      cases hn
      exact he
  | _ => cases hn

namespace Transcript

variable {settings : Settings} {t : Transcript}

/-- Every handle that was handed over was told to stop after that, or the request has it and its
call is going on; and no two calls have one number. -/
structure Accounts (t : Transcript) : Prop where
  once : (Entry.handles t.entries).Nodup
  numbered : ∀ n ∈ Entry.handles t.entries, n < t.scene.calls
  asked : ∀ n, t.ladder.Asks n → n < t.scene.calls ∧ n ∉ Entry.handles t.entries
  stopped : ∀ front n later, t.entries = front ++ .handle n :: later →
    .act (.stop n) ∈ later ∨ t.ladder.Holds t.scene n
  free : Entry.handles t.entries ≠ [] → t.ladder.Free t.scene

/-- An entry of a longer list was there before, or it is new. -/
theorem split_append {entries new front later : List Entry} {e : Entry}
    (h : entries ++ new = front ++ e :: later) :
    (∃ mid, entries = front ++ e :: mid ∧ later = mid ++ new) ∨ ∃ mid, new = mid ++ e :: later := by
  rcases List.append_eq_append_iff.1 h with ⟨mid, rfl, hnew⟩ | ⟨mid, rfl, hnew⟩
  · exact .inr ⟨mid, hnew⟩
  · cases mid with
    | nil => exact .inr ⟨[], hnew.symm⟩
    | cons e' mid =>
        obtain ⟨rfl, rfl⟩ := List.cons.inj hnew
        exact .inl ⟨mid, rfl, rfl⟩

theorem accounts_start (errand : Option Errand) (rung : Rung) (options : SamplingOptions)
    (scene : Scene) : (start errand rung options scene).Accounts := by
  refine ⟨List.nodup_nil, fun n hn => absurd hn List.not_mem_nil, ?_, ?_, fun h => absurd rfl h⟩
  · rintro n ⟨g, hcourse, hreader, -⟩
    rw [Ladder.enter_running hcourse] at hreader
    cases hreader
  · intro front n later h
    simp [start] at h

theorem handles_take (settings : Settings) (t : Transcript) (x : Signal) :
    Entry.handles (t.take settings x).entries =
      Entry.handles t.entries ++ Entry.handles (t.ladder.handed x) := by
  obtain ⟨acts, -, -, hentries⟩ := exists_entries_take settings t x
  rw [hentries, Entry.handles_append, Entry.handles_append, Entry.handles_map_act, List.append_nil]

/-- A handle among the entries of a longer transcript was there before, or it is handed over now. -/
theorem split_take {x : Signal} {front later : List Entry} {n : Nat}
    (h : (t.take settings x).entries = front ++ .handle n :: later) :
    (∃ mid, ∃ acts : List Act, t.entries = front ++ .handle n :: mid ∧
      (t.take settings x).scene.acts = acts.reverse ++ t.scene.acts ∧
      later = mid ++ (t.ladder.handed x ++ acts.map .act)) ∨ .handle n ∈ t.ladder.handed x := by
  obtain ⟨acts, hacts, -, hentries⟩ := exists_entries_take settings t x
  rcases split_append (hentries.symm.trans h) with ⟨mid, hbefore, hlater⟩ | ⟨mid, hnew⟩
  · exact .inl ⟨mid, acts, hbefore, hacts, hlater⟩
  · have hmem : Entry.handle n ∈ t.ladder.handed x ++ acts.map .act := by
      rw [hnew]
      exact List.mem_append_right _ List.mem_cons_self
    refine .inr ((List.mem_append.1 hmem).resolve_right fun hact => ?_)
    obtain ⟨a, -, ha⟩ := List.mem_map.1 hact
    cases ha

theorem Accounts.take_of_receives (h : t.Accounts) {x : Signal} {n : Nat}
    (hhanded : t.ladder.handed x = [.handle n])
    (hreceives : t.ladder.Receives t.scene n (t.ladder.step settings t.scene x)) :
    (t.take settings x).Accounts := by
  obtain ⟨hlt, hfresh⟩ := h.asked n hreceives.asks
  have hhandles : Entry.handles (t.take settings x).entries = Entry.handles t.entries ++ [n] := by
    rw [handles_take, hhanded]
    rfl
  have hholds : (t.take settings x).ladder.Holds (t.take settings x).scene n := hreceives.holds
  have hcalls : (t.take settings x).scene.calls = t.scene.calls := hreceives.calls
  refine ⟨?_, ?_, ?_, ?_, fun _ => ?_⟩
  · rw [hhandles]
    exact List.nodup_append.2 ⟨h.once, List.nodup_cons.2 ⟨List.not_mem_nil, List.nodup_nil⟩,
      fun m hm m' hm' heq =>
        hfresh (List.mem_singleton.1 hm' ▸ heq ▸ hm)⟩
  · rw [hhandles, hcalls]
    exact List.forall_mem_append.2 ⟨h.numbered, fun m hm => List.mem_singleton.1 hm ▸ hlt⟩
  · exact fun m hasks => absurd hholds (hasks.not_holds _ n)
  · intro front m later hentries
    rcases split_take hentries with ⟨mid, acts, hbefore, -, rfl⟩ | hnow
    · rcases h.stopped front m mid hbefore with hstop | hholds
      · exact .inl (List.mem_append_left _ hstop)
      · exact absurd hholds (hreceives.asks.not_holds _ m)
    · rw [hhanded, List.mem_singleton] at hnow
      cases hnow
      exact .inr hholds
  · obtain ⟨g, hcourse, hreceived, -⟩ := hholds
    exact .inr ⟨g, hcourse, hreceived⟩

theorem Accounts.take_of_passes (h : t.Accounts) {x : Signal}
    (hnone : ∀ n, .handle n ∉ t.ladder.handed x)
    (hpasses : t.ladder.Passes t.scene (t.ladder.step settings t.scene x)) :
    (t.take settings x).Accounts := by
  have hhandles : Entry.handles (t.take settings x).entries = Entry.handles t.entries := by
    have hnil : Entry.handles (t.ladder.handed x) = [] :=
      List.eq_nil_iff_forall_not_mem.2 fun n hn => hnone n (Entry.mem_handles.1 hn)
    rw [handles_take, hnil, List.append_nil]
  have hcalls : t.scene.calls ≤ (t.take settings x).scene.calls := hpasses.calls
  refine ⟨?_, ?_, ?_, ?_, ?_⟩
  · rw [hhandles]
    exact h.once
  · rw [hhandles]
    exact fun n hn => Nat.lt_of_lt_of_le (h.numbered n hn) hcalls
  · rw [hhandles]
    intro n hasks
    rcases hpasses.asks n hasks with hbefore | ⟨rfl, hlt⟩
    · obtain ⟨hlt, hfresh⟩ := h.asked n hbefore
      exact ⟨Nat.lt_of_lt_of_le hlt hcalls, hfresh⟩
    · exact ⟨hlt, fun hmem => Nat.lt_irrefl _ (h.numbered _ hmem)⟩
  · intro front n later hentries
    rcases split_take hentries with ⟨mid, acts, hbefore, hacts, rfl⟩ | hnow
    · rcases h.stopped front n mid hbefore with hstop | hholds
      · exact .inl (List.mem_append_left _ hstop)
      -- a handle that the request had is lost by one act only, and this is the one that stops it
      · rcases hpasses.holds n hholds with hholds' | hstop
        · exact .inr hholds'
        · have hnew : acts.reverse = [.stop n] := List.append_cancel_right (hacts.symm.trans hstop)
          rw [List.reverse_eq_iff.1 hnew]
          simp
    · exact absurd hnow (hnone n)
  · rw [hhandles]
    exact fun hsome => hpasses.free (h.free hsome)

/-- **One step preserves it.** -/
theorem Accounts.take (h : t.Accounts) (settings : Settings) (x : Signal) :
    (t.take settings x).Accounts := by
  rcases (t.ladder.goes_step settings t.scene x).handle_cases with
    ⟨n, hhanded, hreceives⟩ | ⟨hnone, hpasses⟩
  · exact h.take_of_receives hhanded hreceives
  · exact h.take_of_passes hnone hpasses

/-! ### Handles that fail -/

/-- The transcript with handles that fail in another way. -/
def balking (t : Transcript) (balks : List Act → Option Failure) : Transcript :=
  { t with scene := { t.scene with balks } }

theorem balking_take (balks : List Act → Option Failure) (settings : Settings) (t : Transcript)
    (x : Signal) : (t.balking balks).take settings x = (t.take settings x).balking balks := by
  have hstep : t.ladder.step settings { t.scene with balks } x = _ :=
    Ladder.step_recast (f := id) (g := fun _ => balks) (fun _ _ => rfl) settings t.ladder t.scene x
  rw [take, balking, hstep]
  rfl

theorem balking_after (balks : List Act → Option Failure) (settings : Settings) (t : Transcript)
    (xs : List Signal) : (t.balking balks).after settings xs = (t.after settings xs).balking balks := by
  induction xs generalizing t with
  | nil => rfl
  | cons x xs ih =>
      show ((t.balking balks).take settings x).after settings xs = _
      rw [balking_take]
      exact ih _

/-- **Every handle is released.** A handle is handed over once, and when its call is over it has been
told to stop since then, and the request has none; whether and how handles fail then changes neither
what a ladder comes to nor what goes on. -/
theorem handles_released (settings : Settings) (errand : Option Errand) (rung : Rung)
    (options : SamplingOptions) (scene : Scene) (xs : List Signal) :
    let t := (start errand rung options scene).after settings xs
    (Entry.handles t.entries).Nodup ∧
    (∀ front n later, t.entries = front ++ .handle n :: later →
      .act (.stop n) ∈ later ∨ t.ladder.Holds t.scene n) ∧
    ((∀ g, t.ladder.course ≠ .running g) → Entry.handles t.entries ≠ [] →
      t.scene.context.handle = none) ∧
    ∀ balks, (start errand rung options { scene with balks }).after settings xs =
      t.balking balks := by
  intro t
  have haccounts : t.Accounts :=
    after_induction xs (accounts_start errand rung options scene) fun t x h => h.take settings x
  refine ⟨haccounts.once, haccounts.stopped, fun hover hsome => ?_, fun balks => ?_⟩
  · exact (haccounts.free hsome).handle_eq_none hover
  · exact balking_after balks settings (start errand rung options scene) xs

/-- A call that is cancelled while it waits for tokens: its handle fails whenever it is told to
stop, and it is told twice. -/
theorem handles_released_of_cancelled_call :
    let failure : Failure := .other .runtime "no such generation".toList
    let options : SamplingOptions := { maxTokens := 300, temperature := .finite 0 }
    let scene : Scene := { host := fun _ => .pass, balks := fun _ => some failure }
    let signals : List Signal := [.resume, .opened, .cancel, .resume, .resume]
    let later : List Entry := [.act (.stop 0), .act (.stop 0)]
    ((start none ⟨0, 0, []⟩ options scene).after {} signals).ladder.course =
      .ended (.error Generation.cancelledFailure) ∧
    ((start none ⟨0, 0, []⟩ options scene).after {} signals).entries =
      [.act (.call 0 [] options)] ++ .handle 0 :: later ∧
    .act (.stop 0) ∈ later ∧
    ((start none ⟨0, 0, []⟩ options scene).after {} signals).scene.context.handle = none := by
  intro failure options scene signals later
  have hended : ((start none ⟨0, 0, []⟩ options scene).after {} signals).ladder.course =
      .ended (.error Generation.cancelledFailure) := rfl
  have hentries : ((start none ⟨0, 0, []⟩ options scene).after {} signals).entries =
      [.act (.call 0 [] options)] ++ .handle 0 :: later := rfl
  have hrunning : ∀ g, ((start none ⟨0, 0, []⟩ options scene).after {}
      signals).ladder.course ≠ .running g := fun g h => by cases hended.symm.trans h
  obtain ⟨-, hstopped, hfree, -⟩ := handles_released {} none ⟨0, 0, []⟩ options scene signals
  have hsome : Entry.handles ((start none ⟨0, 0, []⟩ options scene).after {} signals).entries ≠ [] := by
    rw [hentries]
    exact List.cons_ne_nil _ _
  have hstop : .act (.stop 0) ∈ later :=
    (hstopped _ 0 _ hentries).resolve_right (Ladder.not_holds_of_not_running hrunning _ 0)
  exact ⟨hended, hentries, hstop, hfree hrunning hsome⟩

end Transcript
end Refinery
