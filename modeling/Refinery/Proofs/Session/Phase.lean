import Mathlib.Data.List.Chain
import Refinery.Proofs.Chunk.Partition
import Refinery.Proofs.Session.Cancel
import Refinery.Proofs.Session.Story

/-!
The phases of requests. A request goes from `analyzing` through its generations to a phase at rest:
to `done` with an outcome, to `idle` when a cancellation has ended it, and to `failed` when another
failure has. The desk shows the phase of its latest request, so it is busy exactly while that phase
is not at rest.
-/

namespace Refinery

namespace Phase

/-- The changes of phase within one request, for a text of one chunk or of many. -/
inductive Goes : Bool → Phase → Phase → Prop
  | asksWhole : Goes false .analyzing .generating
  | chunks : Goes true .analyzing .chunking
  | asksFirst : Goes true .chunking .generating
  | validates (many : Bool) : Goes many .generating .validating
  | asksNext : Goes true .validating .generating
  | retries : Goes false .validating .retrying
  | asksAgain : Goes false .retrying .generating
  | finishes (many : Bool) : Goes many .validating .done
  | stops (many : Bool) {p : Phase} (h : p.atRest = false) : Goes many p .idle
  | fails (many : Bool) {p : Phase} (h : p.atRest = false) : Goes many p .failed

/-- The changes of phase at a desk: a request begins at rest, and goes its way. -/
inductive Changes : Phase → Phase → Prop
  | begins {p : Phase} (h : p.atRest = true) : Changes p .analyzing
  | within {many : Bool} {p q : Phase} (h : Goes many p q) : Changes p q

/-- `ps` are the phases after `p`, up to `q`. -/
structure Path (R : Phase → Phase → Prop) (p : Phase) (ps : List Phase) (q : Phase) : Prop where
  chain : List.IsChain R (p :: ps)
  last : ps.getLastD p = q

variable {R S : Phase → Phase → Prop} {p q r : Phase} {ps qs : List Phase} {many : Bool}

theorem Path.nil (R : Phase → Phase → Prop) (p : Phase) : Path R p [] p :=
  ⟨List.isChain_singleton p, rfl⟩

theorem Path.cons (h : R p q) (h' : Path R q qs r) : Path R p (q :: qs) r :=
  ⟨h'.chain.cons_cons h, by rw [List.getLastD_cons]; exact h'.last⟩

theorem Path.trans (h : Path R p ps q) (h' : Path R q qs r) : Path R p (ps ++ qs) r := by
  induction ps generalizing p with
  | nil =>
      obtain rfl : p = q := h.last
      exact h'
  | cons a ps ih =>
      obtain ⟨ha, htail⟩ := List.isChain_cons_cons.1 h.chain
      exact (ih ⟨htail, by rw [← h.last, List.getLastD_cons]⟩).cons ha

theorem Path.mono (h : Path R p ps q) (hRS : ∀ {a b}, R a b → S a b) : Path S p ps q :=
  ⟨h.chain.imp fun _ _ => hRS, h.last⟩

theorem Goes.not_atRest (h : Goes many p q) : p.atRest = false := by
  cases h <;> first | rfl | assumption

/-- A phase at rest can only be the last one. -/
theorem Path.mem_iff_of_atRest (h : Path (Goes many) p ps q) {a : Phase} (ha : a.atRest = true) :
    a ∈ p :: ps ↔ a = q := by
  induction ps generalizing p with
  | nil =>
      obtain rfl : p = q := h.last
      exact List.mem_singleton
  | cons b ps ih =>
      obtain ⟨hgoes, htail⟩ := List.isChain_cons_cons.1 h.chain
      have hne : a ≠ p := by
        rintro rfl
        rw [hgoes.not_atRest] at ha
        cases ha
      rw [List.mem_cons, or_iff_right hne]
      exact ih ⟨htail, by rw [← h.last, List.getLastD_cons]⟩

end Phase

namespace Act

def phase? : Act → Option Phase
  | .phase p => some p
  | _ => none

/-- The phases among some acts. -/
def phases (acts : List Act) : List Phase := acts.filterMap phase?

@[simp] theorem phases_nil : phases [] = [] := rfl

@[simp] theorem phases_append (as bs : List Act) : phases (as ++ bs) = phases as ++ phases bs :=
  List.filterMap_append

@[simp] theorem phases_event (e : Event) (as : List Act) :
    phases (.event e :: as) = phases as := rfl

@[simp] theorem phases_phase (p : Phase) (as : List Act) :
    phases (.phase p :: as) = p :: phases as :=
  rfl

theorem phases_reverse (acts : List Act) : phases acts.reverse = (phases acts).reverse :=
  List.filterMap_reverse

theorem phases_marks (acts : List Act) : phases (marks acts) = phases acts := by
  induction acts with
  | nil => rfl
  | cons a as ih =>
      cases a with
      | event e => exact ih
      | phase p => exact congrArg (p :: ·) ih
      | _ => exact ih

end Act

theorem Desk.phaseAfter_eq (p : Phase) (acts : List Act) :
    phaseAfter p acts = (Act.phases acts).getLastD p := by
  induction acts generalizing p with
  | nil => rfl
  | cons a as ih =>
      cases a with
      | phase q =>
          rw [Act.phases_phase, List.getLastD_cons]
          exact ih q
      | _ => exact ih p

namespace Job

def isMany : Job → Bool
  | whole _ => false
  | parts _ => true

/-- How often the whole text was asked for again. -/
def retries : Job → Nat
  | whole (some _) => 1
  | _ => 0

theorem retries_le_one (job : Job) : job.retries ≤ 1 := by
  unfold retries
  split <;> decide

end Job

/-- The phase that a run shows by how far it is, when the text was asked for again so often. -/
inductive Control.Phased : Bool → Control → Nat → Phase → Prop
  | asks (job : Job) (l : Ladder) : Phased job.isMany (.asking job l) job.retries .generating
  | idles (job : Job) (result : Except Failure Text) :
      Phased job.isMany (.idling job result) job.retries .generating
  | pauses (p : Parts) : Phased true (.pausing p) 0 .validating
  | finishes (many : Bool) {n : Nat} (hn : n ≤ 1) (o : Outcome) :
      Phased many (.ended (some o)) n .done
  | fails (many : Bool) {n : Nat} (hn : n ≤ 1) {q : Phase} (hq : q = .idle ∨ q = .failed) :
      Phased many (.ended none) n q

namespace Control.Phased

variable {many : Bool} {c : Control} {n : Nat} {p : Phase}

theorem retries_le_one (h : Phased many c n p) : n ≤ 1 := by
  cases h with
  | asks job _ => exact job.retries_le_one
  | idles job _ => exact job.retries_le_one
  | pauses _ => exact Nat.zero_le 1
  | finishes _ hn _ => exact hn
  | fails _ hn _ => exact hn

end Control.Phased

namespace Run

open Phase

variable {many : Bool} {n : Nat} {p q : Phase} {ps : List Phase} {new : List Act} {r r' r₁ : Run}

theorem isOver_eq_atRest (h : r.control.Phased many n p) : r.isOver = p.atRest := by
  unfold isOver
  generalize r.control = c at h
  cases h with
  | fails _ _ hq => rcases hq with rfl | rfl <;> rfl
  | _ => rfl

theorem Tells.phases (h : Tells new r r') :
    Act.phases r'.scene.acts = Act.phases new ++ Act.phases r.scene.acts := by
  rw [← Act.phases_marks, h.marks, Act.phases_append, Act.phases_marks]

theorem phases_fail (r : Run) (why : Failure) : Act.phases (r.fail why).scene.acts =
    (verdictOn why).1 :: Act.phases r.scene.acts := by
  rw [← Act.phases_marks, marks_fail, Act.phases_event, Act.phases_phase, Act.phases_marks]

theorem phases_succeed (h : r.scene.cancelled = false) (o : Outcome) :
    Act.phases (r.succeed o).scene.acts = .done :: Act.phases r.scene.acts := by
  rw [← Act.phases_marks, marks_succeed h, Act.phases_event, Act.phases_phase, Act.phases_marks]

theorem goes_verdictOn (many : Bool) (hp : p.atRest = false) (why : Failure) :
    Goes many p (verdictOn why).1 := by
  cases why with
  | cancelled m => exact .stops many hp
  | _ => exact .fails many hp

theorem verdictOn_cases (why : Failure) :
    (verdictOn why).1 = .idle ∨ (verdictOn why).1 = .failed := by
  cases why <;> simp [verdictOn]

/-- `r'` shows the phases `ps` after those that `r` has shown, the last of which is `p`, and is where
its phase is the last of them. The text was asked for again `n` times by then, and once for each
`retrying` among them. -/
def Shifts (many : Bool) (n : Nat) (p : Phase) (r r' : Run) : Prop :=
  ∃ ps q, Act.phases r'.scene.acts = ps.reverse ++ Act.phases r.scene.acts ∧
    Path (Goes many) p ps q ∧ r'.control.Phased many (n + ps.count .retrying) q

/-- A run that has shown some more phases and is about to go on. -/
structure Passes (many : Bool) (n : Nat) (p : Phase) (ps : List Phase) (q : Phase) (r r' : Run) :
    Prop where
  phases : Act.phases r'.scene.acts = ps.reverse ++ Act.phases r.scene.acts
  path : Path (Goes many) p ps q
  retries : n + ps.count .retrying ≤ 1

theorem Passes.shifts (h : Passes many n p ps q r r')
    (hphased : r'.control.Phased many (n + ps.count .retrying) q) : Shifts many n p r r' :=
  ⟨ps, q, h.phases, h.path, hphased⟩

theorem Passes.fail (h : Passes many n p ps q r r₁) (hq : q.atRest = false) (why : Failure) :
    Shifts many n p r (r₁.fail why) := by
  refine ⟨ps ++ [(verdictOn why).1], (verdictOn why).1, ?_,
    h.path.trans ((Path.nil _ _).cons (goes_verdictOn many hq why)), ?_⟩
  · rw [phases_fail, h.phases, List.reverse_append]
    rfl
  · have hcount : (ps ++ [(verdictOn why).1]).count .retrying = ps.count .retrying := by
      rw [List.count_append]
      rcases verdictOn_cases why with heq | heq <;> rw [heq] <;> rfl
    rw [hcount]
    exact .fails many h.retries (verdictOn_cases why)

theorem Passes.succeed (h : Passes many n p ps .validating r r₁) (o : Outcome) :
    Shifts many n p r (r₁.succeed o) := by
  by_cases hcancelled : r₁.scene.cancelled = true
  · rw [succeed_of_cancelled hcancelled]
    exact h.fail rfl _
  · have hgoing : r₁.scene.cancelled = false := by simpa using hcancelled
    refine ⟨ps ++ [.done], .done, ?_, h.path.trans ((Path.nil _ _).cons (.finishes many)), ?_⟩
    · rw [phases_succeed hgoing, h.phases, List.reverse_append]
      rfl
    · rw [control_succeed hgoing, List.count_append]
      exact .finishes many h.retries o

theorem Passes.enter (job : Job) (h : Passes job.isMany n p ps .generating r r₁)
    (hretries : n + ps.count .retrying = job.retries) (e : Errand) (level : Int)
    (options : SamplingOptions) : Shifts job.isMany n p r (r₁.enter job e level options) := by
  refine ⟨ps, .generating, by rw [scene_enter]; exact h.phases, h.path, ?_⟩
  rw [hretries]
  by_cases hcancelled : r₁.scene.cancelled = true
  · rw [enter_of_cancelled job e level options hcancelled]
    exact .idles job _
  · rw [enter_of_going job e level options (by simpa using hcancelled)]
    exact .asks job _

theorem phases_keptMarks (kept : Bool) : Act.phases (keptMarks kept) = [] := by
  cases kept <;> rfl

/-- A run at its turn after a ladder shows that it validates. -/
theorem Tells.passes_validating (h : Tells new r r₁) (job : Job)
    (hnew : Act.phases new = [.validating]) :
    Passes job.isMany job.retries .generating [.validating] .validating r r₁ :=
  ⟨by rw [h.phases, hnew]; rfl, (Path.nil _ _).cons (.validates _), job.retries_le_one⟩

theorem Turn.shifts (h : Turn r r') (hp : r.control.Phased many n p) : Shifts many n p r r' := by
  cases h with
  | @breaks r₁ job why hcontrol told =>
      rw [hcontrol] at hp
      cases hp
      have hpasses : Passes job.isMany job.retries .generating [] .generating r r₁ :=
        ⟨told.phases, Path.nil _ _, job.retries_le_one⟩
      exact hpasses.fail rfl why
  | stops hcontrol told =>
      rw [hcontrol] at hp
      cases hp
      exact (told.passes_validating (.whole none) rfl).fail rfl _
  | takesFirst hcontrol told =>
      rw [hcontrol] at hp
      cases hp
      exact (told.passes_validating (.whole none) rfl).succeed _
  | @asksAgain r₁ output hcontrol told =>
      rw [hcontrol] at hp
      cases hp
      have hpath : Path (Goes false) .generating [.validating, .retrying, .generating]
          .generating :=
        (((Path.nil _ _).cons .asksAgain).cons .retries).cons (.validates false)
      have hpasses : Passes false 0 .generating [.validating, .retrying, .generating] .generating
          r r₁ := ⟨told.phases, hpath, Nat.le_refl 1⟩
      exact hpasses.enter (.whole (some (r.judge output))) rfl _ _ _
  | takesSecond hcontrol told o _ =>
      rw [hcontrol] at hp
      cases hp
      exact (told.passes_validating (.whole (some _)) rfl).succeed o
  | @pauses r₁ p output c later hcontrol hlater told =>
      rw [hcontrol] at hp
      cases hp
      have hpasses := told.passes_validating (.parts p) (by simp [phases_keptMarks])
      exact ⟨_, _, hpasses.phases, hpasses.path, .pauses _⟩
  | @joins r₁ p output hcontrol hlater told after hafter =>
      rw [hcontrol] at hp
      cases hp
      exact (told.passes_validating (.parts p) (by simp [phases_keptMarks])).succeed _
  | turnsBack hcontrol _ =>
      rw [hcontrol] at hp
      cases hp
      have hpasses : Passes true 0 .validating [] .validating r r :=
        ⟨rfl, Path.nil _ _, Nat.zero_le 1⟩
      exact hpasses.fail rfl _
  | @asksPart r₁ p hcontrol told =>
      rw [hcontrol] at hp
      cases hp
      have hpasses : Passes true 0 .validating [.generating] .generating r r₁ :=
        ⟨told.phases, (Path.nil _ _).cons .asksNext, Nat.zero_le 1⟩
      exact hpasses.enter (.parts p) rfl _ _ _

theorem phased_withLadder (r : Run) (job : Job) (l : Ladder) :
    (r.withLadder job l).control.Phased job.isMany job.retries .generating := by
  unfold withLadder
  split
  · exact .asks job l
  · exact .idles job _

theorem phases_map_event (es : List Event) : Act.phases (es.map .event) = [] := by
  induction es with
  | nil => rfl
  | cons e es ih => exact ih

/-- Where nothing but events is added, no phase is. -/
theorem shifts_of_events (es : List Event)
    (hmarks : Act.marks r'.scene.acts = es.map .event ++ Act.marks r.scene.acts)
    (hp : r'.control.Phased many n p) : Shifts many n p r r' := by
  refine ⟨[], p, ?_, Path.nil _ p, hp⟩
  rw [← Act.phases_marks, hmarks, Act.phases_append, phases_map_event, Act.phases_marks]
  rfl

theorem Takes.shifts {x : Signal} (h : Takes r x r') (hp : r.control.Phased many n p) :
    Shifts many n p r r' := by
  cases h with
  | cancels => exact shifts_of_events [] (Scene.marks_cancel _) hp
  | @ticks job l i s hcontrol hs hi =>
      refine shifts_of_events [.substage (.hint i)] ?_ hp
      rw [Scene.marks_tell, hs]
      rfl
  | climbs hcontrol _ _ hclimb _ =>
      obtain ⟨es, hmarks, -, -⟩ := hclimb.exists_told
      rw [hcontrol] at hp
      cases hp
      refine shifts_of_events es ?_ (phased_withLadder _ _ _)
      rw [scene_withLadder]
      exact hmarks
  | turns hturn => exact hturn.shifts hp
  | waits x => exact shifts_of_events [] rfl hp

/-- **A step goes on from the phase that a run is in, through phases that may follow.** -/
theorem shifts_step (hr : r.scene.Unfailing) (hp : r.control.Phased many n p) (x : Signal) :
    Shifts many n p r (r.step x) := (takes_step hr x).shifts hp

/-- Whether a request is asked for in many chunks. -/
def isMany (settings : Settings) (request : Request) : Bool :=
  decide (2 ≤ (Chunk.split request.code settings.chunkSize).length)

theorem isMany_eq_true (settings : Settings) (name : Text) (request : Request) (host : Host)
    {c d : Chunk} {later : List Chunk}
    (h : Chunk.ofTexts (opened settings name request host).report.chunks = c :: d :: later) :
    isMany settings request = true := by
  have hlength := congrArg List.length h
  rw [Chunk.length_ofTexts] at hlength
  have hsplit : (Chunk.split request.code settings.chunkSize).length = later.length + 2 := hlength
  rw [isMany, hsplit, decide_eq_true_iff]
  omega

theorem isMany_eq_false (settings : Settings) (name : Text) (request : Request) (host : Host)
    (h : (Chunk.ofTexts (opened settings name request host).report.chunks).length < 2) :
    isMany settings request = false := by
  rw [Chunk.length_ofTexts] at h
  have hsplit : (Chunk.split request.code settings.chunkSize).length < 2 := h
  rw [isMany, decide_eq_false_iff_not]
  omega

/-- A request begins with `analyzing`. -/
theorem shifts_begin (settings : Settings) (name : Text) (request : Request) (host : Host) :
    Shifts (isMany settings request) 0 .analyzing
      ((opened settings name request host).phase .analyzing) (begin settings name request host) := by
  have hbegins := begins_begin settings name request host
  generalize begin settings name request host = r at hbegins
  cases hbegins with
  | @turnsBack r₁ c d later hchunks told =>
      rw [isMany_eq_true settings name request host hchunks]
      have hpasses : Passes true 0 .analyzing [.chunking] .chunking
          ((opened settings name request host).phase .analyzing) r₁ :=
        ⟨told.phases, (Path.nil _ _).cons .chunks, Nat.zero_le 1⟩
      exact hpasses.fail rfl _
  | @asksPart r₁ c d later p hchunks hp told =>
      rw [isMany_eq_true settings name request host hchunks]
      have hpasses : Passes true 0 .analyzing [.chunking, .generating] .generating
          ((opened settings name request host).phase .analyzing) r₁ :=
        ⟨told.phases, ((Path.nil _ _).cons .asksFirst).cons .chunks, Nat.zero_le 1⟩
      exact hpasses.enter (.parts p) rfl _ _ _
  | @asksWhole r₁ hchunks told =>
      rw [isMany_eq_false settings name request host hchunks]
      have hpasses : Passes false 0 .analyzing [.generating] .generating
          ((opened settings name request host).phase .analyzing) r₁ :=
        ⟨told.phases, (Path.nil _ _).cons .asksWhole, Nat.zero_le 1⟩
      exact hpasses.enter (.whole none) rfl _ _ _

/-! ### A whole request -/

/-- The phases that a run has shown, oldest first: `analyzing`, and then these. -/
def Shown (many : Bool) (r : Run) (ps : List Phase) (q : Phase) : Prop :=
  Act.phases r.scene.acts.reverse = .analyzing :: ps ∧ Path (Goes many) .analyzing ps q ∧
    r.control.Phased many (ps.count .retrying) q

theorem Shown.step (h : Shown many r ps q) (hr : r.scene.Unfailing) (x : Signal) :
    ∃ qs q', Shown many (r.step x) (ps ++ qs) q' := by
  obtain ⟨hphases, hpath, hphased⟩ := h
  obtain ⟨qs, q', hphases', hpath', hphased'⟩ := shifts_step hr hphased x
  refine ⟨qs, q', ?_, hpath.trans hpath', by rw [List.count_append]; exact hphased'⟩
  rw [Act.phases_reverse] at hphases ⊢
  rw [hphases', List.reverse_append, List.reverse_reverse, hphases]
  rfl

theorem shown_begin (settings : Settings) (name : Text) (request : Request) (host : Host) :
    ∃ ps q, Shown (isMany settings request) (begin settings name request host) ps q := by
  obtain ⟨ps, q, hphases, hpath, hphased⟩ := shifts_begin settings name request host
  rw [Nat.zero_add] at hphased
  refine ⟨ps, q, ?_, hpath, hphased⟩
  rw [Act.phases_reverse, hphases, List.reverse_append, List.reverse_reverse]
  rfl

theorem exists_shown_after (settings : Settings) (name : Text) (request : Request) (host : Host)
    (xs : List Signal) : ∃ ps q,
      Shown (isMany settings request) ((begin settings name request host).after xs) ps q := by
  induction xs using List.reverseRecOn with
  | nil => exact shown_begin settings name request host
  | append_singleton xs x ih =>
      obtain ⟨ps, q, hshown⟩ := ih
      rw [after_concat]
      obtain ⟨qs, q', hshown'⟩ :=
        hshown.step (heedful_after_begin settings name request host xs).unfailing x
      exact ⟨ps ++ qs, q', hshown'⟩

/-- A run that was opened so is on its way, or has come to its end. -/
inductive Gone (opened : Run) : Run → Prop
  | going {r : Run} (quiet : Quiet opened r) (hopen : r.isOver = false) : Gone opened r
  | failed {r₁ : Run} (quiet : Quiet opened r₁) (why : Failure) : Gone opened (r₁.fail why)
  | succeeded {r₁ : Run} (quiet : Quiet opened r₁) (hgoing : r₁.scene.cancelled = false)
      (o : Outcome) : Gone opened (r₁.succeed o)

variable {opened : Run}

theorem gone_succeed (h : Quiet opened r) (o : Outcome) : Gone opened (r.succeed o) := by
  by_cases hcancelled : r.scene.cancelled = true
  · rw [succeed_of_cancelled hcancelled]
    exact .failed h _
  · exact .succeeded h (by simpa using hcancelled) o

theorem gone_of_place {job : Job} (h : Quiet opened r) (hplace : r.control.place = .on job) :
    Gone opened r := .going h (isOver_of_place hplace)

theorem Gone.step (h : Gone opened r) (x : Signal) : Gone opened (r.step x) := by
  cases h with
  | failed quiet why =>
      rw [step_of_isOver (attended_fail _ why) rfl]
      exact .failed quiet why
  | succeeded quiet hgoing o =>
      rw [step_of_isOver (attended_succeed _ o) (by rw [isOver, control_succeed hgoing])]
      exact .succeeded quiet hgoing o
  | going quiet hopen =>
      have hadvance := advance_step r x
      generalize r.step x = r' at hadvance
      cases hadvance with
      | stays quiet' place =>
          refine .going (quiet.trans quiet') (Bool.eq_false_iff.2 fun hover => ?_)
          obtain ⟨o, ho⟩ := isOver_iff.1 hover
          rw [isOver_iff.2 ⟨o, place ▸ ho⟩] at hopen
          cases hopen
      | fails quiet' _ why => exact .failed (quiet.trans quiet') why
      | takesFirst quiet' _ _ => exact gone_succeed (quiet.trans quiet') _
      | asksAgain quiet' _ _ place' => exact gone_of_place (quiet.trans quiet') place'
      | keepsFirst quiet' _ => exact gone_succeed (quiet.trans quiet') _
      | takesSecond quiet' _ _ => exact gone_succeed (quiet.trans quiet') _
      | goesOn quiet' _ _ _ _ place' => exact gone_of_place (quiet.trans quiet') place'
      | joins quiet' _ _ _ _ _ => exact gone_succeed (quiet.trans quiet') _

theorem gone_after_begin (settings : Settings) (name : Text) (request : Request) (host : Host)
    (xs : List Signal) : Gone (Run.opened settings name request host)
      ((begin settings name request host).after xs) := by
  refine after_induction xs ?_ fun _ x h => h.step x
  have hopening := opening_begin settings name request host
  generalize begin settings name request host = r at hopening
  cases hopening with
  | fails quiet why => exact .failed quiet why
  | whole quiet place => exact gone_of_place quiet place
  | parts quiet _ place => exact gone_of_place quiet place

/-- The run was on its way when this failure was raised, and ended by it. -/
def FailedWith (opened : Run) (why : Failure) (r : Run) : Prop :=
  ∃ r₁, Quiet opened r₁ ∧ r = r₁.fail why

theorem verdictOn_eq_idle_iff {why : Failure} :
    (verdictOn why).1 = .idle ↔ ∃ m, why = .cancelled m := by
  cases why <;> simp [verdictOn]

theorem verdictOn_eq_failed_iff {why : Failure} :
    (verdictOn why).1 = .failed ↔ ∀ m, why ≠ .cancelled m := by
  cases why <;> simp [verdictOn]

/-- The phase that a run has come to is the latest that it has shown. -/
theorem Shown.eq_of_phases (h : Shown many r ps q) {p : Phase} {earlier : List Phase}
    (hphases : Act.phases r.scene.acts = p :: earlier) : q = p := by
  obtain ⟨hshown, hpath, -⟩ := h
  rw [Act.phases_reverse, hphases, List.reverse_cons] at hshown
  have hlast := congrArg (List.getLastD · .analyzing) hshown
  rw [List.getLastD_concat, List.getLastD_cons, hpath.last] at hlast
  exact hlast.symm

theorem Shown.eq_done_iff (h : Shown many r ps q) : q = .done ↔ ∃ o, r.outcome? = some o := by
  obtain ⟨-, -, hphased⟩ := h
  unfold outcome?
  generalize r.control = c, ps.count .retrying = n at hphased
  cases hphased with
  | finishes _ _ o => exact ⟨fun _ => ⟨o, rfl⟩, fun _ => rfl⟩
  | fails _ _ hq => rcases hq with rfl | rfl <;> simp
  | _ => simp

/-- A run shows `idle` or `failed` when a failure has ended it, by the verdict on that failure. -/
theorem Shown.eq_iff_failedWith (h : Shown many r ps q) (hgone : Gone opened r)
    (hp : p = .idle ∨ p = .failed) :
    q = p ↔ ∃ why, (verdictOn why).1 = p ∧ FailedWith opened why r := by
  constructor
  · rintro rfl
    cases hgone with
    | going _ hopen =>
        rw [isOver_eq_atRest h.2.2] at hopen
        rcases hp with rfl | rfl <;> cases hopen
    | failed quiet why => exact ⟨why, (h.eq_of_phases (phases_fail _ why)).symm, _, quiet, rfl⟩
    | succeeded _ hgoing o =>
        have hdone := h.eq_of_phases (phases_succeed hgoing o)
        rcases hp with rfl | rfl <;> cases hdone
  · rintro ⟨why, rfl, r₁, -, rfl⟩
    exact h.eq_of_phases (phases_fail r₁ why)

/-- No step changes whose host a run has. -/
theorem host_step (r : Run) (x : Signal) : (r.step x).scene.host = r.scene.host := by
  have hsucceed : ∀ (r₁ : Run) (o : Outcome), (r₁.succeed o).scene.host = r₁.scene.host := by
    intro r₁ o
    unfold succeed
    split
    · exact host_fail r₁ _
    · exact Scene.host_emit _ _
  have hadvance := advance_step r x
  generalize r.step x = r' at hadvance
  cases hadvance with
  | stays quiet _ => exact quiet.scene.host_eq
  | fails quiet _ why => exact (host_fail _ why).trans quiet.scene.host_eq
  | takesFirst quiet _ _ => exact (hsucceed _ _).trans quiet.scene.host_eq
  | asksAgain quiet _ _ _ => exact quiet.scene.host_eq
  | keepsFirst quiet _ => exact (hsucceed _ _).trans quiet.scene.host_eq
  | takesSecond quiet _ _ => exact (hsucceed _ _).trans quiet.scene.host_eq
  | goesOn quiet _ _ _ _ _ => exact quiet.scene.host_eq
  | joins quiet _ _ _ _ _ => exact (hsucceed _ _).trans quiet.scene.host_eq

end Run

/-! ### Histories -/

namespace History

open Phase

/-- The phases at a desk, oldest first. -/
def phases (h : History) : List Phase := Act.phases (h.deeds.map (·.act))

/-- The phases so far follow each other as they may, and the desk is at the last of them; it is at
rest there if it is free, and else the request on its way is where that phase is shown. -/
structure Orderly (h : History) : Prop where
  path : Path Changes .idle h.phases h.desk.phase
  free : h.desk.active = none → h.desk.phase.atRest = true
  busy : ∀ t r, h.desk.active = some (t, r) → r.isOver = false ∧ r.scene.Unfailing ∧
    r.scene.acts = [] ∧ ∃ many n, r.control.Phased many n h.desk.phase

variable {h : History} {t : Nat} {r : Run} {many : Bool} {n : Nat} {ps : List Phase} {q : Phase}

theorem orderly_start (settings : Settings) : Orderly (start settings) :=
  ⟨Path.nil _ _, fun _ => rfl, fun _ _ hactive => nomatch hactive⟩

theorem phases_settled (h : History) (t : Nat) (r : Run) :
    (h.settled t r).phases = h.phases ++ Act.phases r.scene.acts.reverse := by
  rw [phases, settled, List.map_append, Desk.settle_deeds, Act.phases_append, List.map_map]
  congr 2
  exact List.map_id _

theorem phase_settled (h : History) (t : Nat) (r : Run) : (h.settled t r).desk.phase =
    (Act.phases r.scene.acts.reverse).getLastD h.desk.phase := by
  rw [← Desk.phaseAfter_eq]
  unfold settled Desk.settle
  simp only
  split <;> rfl

/-- The desk notes what a run has done that has gone on from the phase that the desk is at. -/
theorem Orderly.settled (ho : Orderly h) (hunfailing : r.scene.Unfailing)
    (hphases : Act.phases r.scene.acts.reverse = ps) (hpath : Path Changes h.desk.phase ps q)
    (hphased : r.control.Phased many n q) : Orderly (h.settled t r) := by
  have hphase : (h.settled t r).desk.phase = q := by rw [phase_settled, hphases, hpath.last]
  refine ⟨?_, fun hnone => ?_, fun u s hactive => ?_⟩
  · rw [phases_settled, hphases, hphase]
    exact ho.path.trans hpath
  · rw [hphase, ← Run.isOver_eq_atRest hphased]
    cases hover : r.isOver with
    | true => rfl
    | false =>
        rw [History.settled, (Desk.settle_of_not_isOver h.desk t hover).1] at hnone
        cases hnone
  · cases hover : r.isOver with
    | true =>
        rw [History.settled, (Desk.settle_of_isOver h.desk t hover).1] at hactive
        cases hactive
    | false =>
        rw [History.settled, (Desk.settle_of_not_isOver h.desk t hover).1] at hactive
        cases hactive
        rw [hphase]
        exact ⟨hover, hunfailing, rfl, many, n, hphased⟩

theorem Orderly.signal (ho : Orderly h) (x : Signal) : Orderly (h.next (.signal x)) := by
  cases hactive : h.desk.active with
  | none => rwa [next_signal_of_none hactive]
  | some entry =>
      obtain ⟨t, r⟩ := entry
      obtain ⟨-, hunfailing, hacts, many, n, hphased⟩ := ho.busy t r hactive
      obtain ⟨ps, q, hphases, hpath, hphased'⟩ := Run.shifts_step hunfailing hphased x
      rw [next_signal_of_some hactive]
      refine ho.settled (Scene.unfailing_congr hunfailing (Run.host_step r x)) ?_
        (hpath.mono .within) hphased'
      rw [Act.phases_reverse, hphases, hacts, Act.phases_nil, List.append_nil,
        List.reverse_reverse]

theorem Orderly.signals (ho : Orderly h) (xs : List Signal) :
    Orderly (h.after (xs.map .signal)) := by
  induction xs generalizing h with
  | nil => exact ho
  | cons x xs ih => exact ih (ho.signal x)

/-- A request that is turned away shows no phase. -/
theorem phases_insert (d : Desk) (front back : List Deed) (t : Nat) (e : Event) :
    phases ⟨d, front ++ ⟨t, .event e⟩ :: back⟩ = phases ⟨d, front ++ back⟩ := by
  unfold phases
  simp only [List.map_append, List.map_cons, Act.phases_append, Act.phases_event]

theorem Orderly.next (ho : Orderly h) (m : Move) : Orderly (h.next m) := by
  cases m with
  | signal x => exact ho.signal x
  | submit t name request host =>
      cases hbusy : h.desk.isBusy with
      | true =>
          obtain ⟨d, new, hreaching, hnext⟩ := exists_next_submit (u := t) hbusy name request host
          have ho' := ho.signals (Move.submit t name request host).reaching
          rw [hreaching] at ho'
          rw [hnext]
          refine ⟨?_, ho'.free, ho'.busy⟩
          rw [phases_insert]
          exact ho'.path
      | false =>
          have hrest : h.desk.phase.atRest = true :=
            ho.free (by simpa [Desk.isBusy] using hbusy)
          obtain ⟨ps, q, hshown, hpath, hphased⟩ :=
            Run.shown_begin h.desk.settings name request host
          rw [next_submit_of_free hbusy]
          exact ho.settled (Run.heedful_begin h.desk.settings name request host).unfailing hshown
            ((hpath.mono .within).cons (.begins hrest)) hphased

theorem Orderly.after (ho : Orderly h) (ms : List Move) : Orderly (h.after ms) := by
  induction ms generalizing h with
  | nil => exact ho
  | cons m ms ih => exact ih (ho.next m)

theorem Orderly.isBusy_eq (ho : Orderly h) : h.desk.isBusy = !h.desk.phase.atRest := by
  cases hactive : h.desk.active with
  | none => rw [Desk.isBusy, hactive, ho.free hactive]; rfl
  | some entry =>
      obtain ⟨t, r⟩ := entry
      obtain ⟨hopen, -, -, many, n, hphased⟩ := ho.busy t r hactive
      rw [Desk.isBusy, hactive, ← Run.isOver_eq_atRest hphased, hopen]
      rfl

section Admitted

variable {settings : Settings} {before later : List Move} {ticket : Nat} {name : Text}
  {request : Request} {host : Host}

/-- What an admitted request comes to shows in its phases. -/
theorem ends_admitted
    (hd : (Move.tickets (before ++ .submit ticket name request host :: later)).Nodup)
    (hfree : ((start settings).after before).desk.isBusy = false) :
    let h := (start settings).after (before ++ .submit ticket name request host :: later)
    let r := (Run.begin settings name request host).after (later.flatMap Move.reaching)
    let opened := Run.opened settings name request host
    let shown := Act.phases (h.actsOf ticket)
    (.done ∈ shown ↔ ∃ o, some o ∈ h.resultsOf ticket) ∧
    (.idle ∈ shown ↔ ∃ m, Run.FailedWith opened (.cancelled m) r) ∧
    (.failed ∈ shown ↔ ∃ why, (∀ m, why ≠ .cancelled m) ∧ Run.FailedWith opened why r) := by
  intro h r opened shown
  have hshows : Shows ticket r h := shows_until hd hfree (List.prefix_refl later)
  have hgone : Run.Gone opened r := Run.gone_after_begin settings name request host _
  obtain ⟨ps, q, hrun⟩ :=
    Run.exists_shown_after settings name request host (later.flatMap Move.reaching)
  have hmem : ∀ a : Phase, a.atRest = true → (a ∈ shown ↔ q = a) := by
    intro a ha
    rw [show shown = .analyzing :: ps by rw [← hrun.1, ← hshows.acts], eq_comm]
    exact hrun.2.1.mem_iff_of_atRest ha
  refine ⟨?_, ?_, ?_⟩
  · rw [hmem .done rfl, hrun.eq_done_iff, hshows.results]
    have hover : ∀ o, r.outcome? = some o → r.isOver = true := fun o ho =>
      Run.isOver_iff.2 ⟨some o, Run.outcome?_eq_some_iff.1 ho⟩
    refine exists_congr fun o => ⟨fun ho => ?_, fun ho => ?_⟩
    · rw [if_pos (hover o ho)]
      exact List.mem_singleton.2 ho.symm
    · split at ho
      · exact (List.mem_singleton.1 ho).symm
      · cases ho
  · rw [hmem .idle rfl, hrun.eq_iff_failedWith hgone (Or.inl rfl)]
    simp only [Run.verdictOn_eq_idle_iff]
    exact ⟨fun ⟨_, ⟨m, hm⟩, hwith⟩ => ⟨m, hm ▸ hwith⟩, fun ⟨m, hwith⟩ => ⟨_, ⟨m, rfl⟩, hwith⟩⟩
  · rw [hmem .failed rfl, hrun.eq_iff_failedWith hgone (Or.inr rfl)]
    simp only [Run.verdictOn_eq_failed_iff]
    exact Iff.rfl

end Admitted

/-- **The phases at a desk follow each other as they may.** The desk is at the last of them, and is
busy exactly while that one is not at rest. A request that was admitted goes from `analyzing` to its
end as its number of chunks allows, and is asked for again once at most: it shows `done` exactly if it
has an outcome, `idle` exactly if a cancellation has ended it, and `failed` exactly if another failure
has. -/
theorem phases_in_order (settings : Settings) (ms : List Move) :
    let h := (start settings).after ms
    List.IsChain Changes (.idle :: h.phases) ∧ h.desk.phase = h.phases.getLastD .idle ∧
    h.desk.isBusy = !h.desk.phase.atRest ∧
    ∀ before later ticket name request host,
      ms = before ++ .submit ticket name request host :: later → (Move.tickets ms).Nodup →
      ((start settings).after before).desk.isBusy = false →
        let r := (Run.begin settings name request host).after (later.flatMap Move.reaching)
        let opened := Run.opened settings name request host
        let shown := Act.phases (h.actsOf ticket)
        h.actsOf ticket = r.scene.acts.reverse ∧ shown.head? = some .analyzing ∧
        List.IsChain (Goes (Run.isMany settings request)) shown ∧ shown.count .retrying ≤ 1 ∧
        (.done ∈ shown ↔ ∃ o, some o ∈ h.resultsOf ticket) ∧
        (.idle ∈ shown ↔ ∃ m, Run.FailedWith opened (.cancelled m) r) ∧
        (.failed ∈ shown ↔ ∃ why, (∀ m, why ≠ .cancelled m) ∧ Run.FailedWith opened why r) := by
  intro h
  have ho : Orderly h := (orderly_start settings).after ms
  refine ⟨ho.path.chain, ho.path.last.symm, ho.isBusy_eq, ?_⟩
  intro before later ticket name request host hms hd hfree r opened shown
  subst hms
  have hacts : h.actsOf ticket = r.scene.acts.reverse :=
    (shows_until hd hfree (List.prefix_refl later)).acts
  obtain ⟨ps, q, hphases, hpath, hphased⟩ :=
    Run.exists_shown_after settings name request host (later.flatMap Move.reaching)
  have hshown : shown = .analyzing :: ps := by rw [← hphases, ← hacts]
  have hcount : shown.count .retrying ≤ 1 := by
    rw [hshown]
    exact hphased.retries_le_one
  exact ⟨hacts, by rw [hshown]; rfl, hshown ▸ hpath.chain, hcount, ends_admitted hd hfree⟩

/-- A request is cancelled while it is on its way, which another one that is turned away does not
disturb; a third one comes back unchanged, is asked for again, and is done. -/
theorem phases_of_three_requests :
    let request : Request := { code := "if (xs.includes(1)) g()".toList, code_filled := by decide }
    let arrival (ticket : Nat) : Move := .submit ticket [] request fun _ => .pass
    let answer : List Move := [.signal .resume, .signal .opened,
      .signal (.token (.text "if (xs.includes(1)) g()".toList)), .signal .ended, .signal .settled,
      .signal .resume, .signal .resume, .signal .resume]
    let cancelled : List Move := [.signal .resume, arrival 1, .signal .opened, .signal .cancel,
      .signal .resume, .signal .resume, .signal .resume]
    let h := (start {}).after (arrival 0 :: (cancelled ++ arrival 2 :: (answer ++ answer)))
    (Act.phases (h.actsOf 2)).count .retrying = 1 ∧ (∃ o, some o ∈ h.resultsOf 2) ∧
      (∃ m, Run.FailedWith (Run.opened {} [] request fun _ => .pass) (.cancelled m)
        ((Run.begin {} [] request fun _ => .pass).after
          ((cancelled ++ arrival 2 :: (answer ++ answer)).flatMap Move.reaching))) ∧
      h.desk.isBusy = false := by
  intro request arrival answer cancelled h
  have hd : (Move.tickets (arrival 0 :: (cancelled ++ arrival 2 :: (answer ++ answer)))).Nodup := by
    decide
  have hfree : ((start {}).after (arrival 0 :: cancelled)).desk.isBusy = false := by
    decide +kernel
  have hidle : .idle ∈ Act.phases (h.actsOf 0) := by decide +kernel
  have hdone : .done ∈ Act.phases (h.actsOf 2) := by decide +kernel
  have hretrying : (Act.phases (h.actsOf 2)).count .retrying = 1 := by decide +kernel
  have hphase : h.desk.phase = .done := by decide +kernel
  clear_value request
  obtain ⟨-, -, hbusy, hrequests⟩ :=
    phases_in_order {} (arrival 0 :: (cancelled ++ arrival 2 :: (answer ++ answer)))
  obtain ⟨-, -, -, -, -, hcancelled, -⟩ := hrequests []
    (cancelled ++ arrival 2 :: (answer ++ answer)) 0 [] request (fun _ => .pass) rfl hd rfl
  obtain ⟨-, -, -, -, houtcome, -, -⟩ := hrequests (arrival 0 :: cancelled) (answer ++ answer) 2 []
    request (fun _ => .pass) rfl hd hfree
  refine ⟨hretrying, houtcome.1 hdone, hcancelled.1 hidle, ?_⟩
  have hh : (start {}).after (arrival 0 :: (cancelled ++ arrival 2 :: (answer ++ answer))) = h := rfl
  rw [hh] at hbusy
  clear_value h
  rw [hbusy, hphase]
  rfl

end History
end Refinery
