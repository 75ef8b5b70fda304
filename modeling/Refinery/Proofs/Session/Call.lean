import Refinery.Proofs.Session.Talk

/-!
One chunk is asked for and answered. The stages of the call are those of its reader; an answer that
neither is blank nor looks incomplete is taken at once, so that the ladder stays on its first rung.
-/

namespace Refinery

open Talk

namespace Generation

open Inference

/-- A call in which so much of the answer has still to be said. -/
structure Saying (prompt answer : Text) (reader : Reader) (rest : List Text) (g : Generation) :
    Prop where
  reader_eq : g.reader = reader
  prompt_eq : g.prompt = prompt
  expired_eq : g.expired = false
  output_eq : g.output ++ rest.flatten = answer
  preview : ∀ f ∈ g.preview, ∃ t, f = Fragment.text t

theorem exists_join {fs : List Fragment} (h : ∀ f ∈ fs, ∃ t, f = Fragment.text t) (index : Nat) :
    ∃ t, Fragment.join index fs = .ok t := by
  induction fs generalizing index with
  | nil => exact ⟨[], rfl⟩
  | cons f fs ih =>
      obtain ⟨t, rfl⟩ := h f List.mem_cons_self
      obtain ⟨u, hu⟩ := ih (fun f hf => h f (List.mem_cons_of_mem _ hf)) (index + 1)
      refine ⟨t ++ u, ?_⟩
      rw [Fragment.join, hu]
      rfl

variable {settings : Settings} {g : Generation} {s : Scene} {prompt answer : Text}
  {reader : Reader} {rest : List Text}

theorem Saying.flush (h : g.Saying prompt answer reader rest) (hs : s.Calm) :
    ∃ g' s', g.flush s = (g', s') ∧ s'.Calm ∧ g'.Saying prompt answer reader rest := by
  obtain ⟨t, ht⟩ := exists_join h.preview 0
  refine ⟨{ g with preview := [], previewSize := 0 }, (s.emit (.chunk t)).1, ?_, hs.tell _, ?_⟩
  · simp only [Generation.flush, ht, hs.emit_eq]
  · exact ⟨h.reader_eq, h.prompt_eq, h.expired_eq, h.output_eq,
      fun _ h => absurd h List.not_mem_nil⟩

theorem Saying.extend (h : g.Saying prompt answer reader rest) (hs : s.Calm) (flushChars : Int)
    (t : Text) : ∃ g' s', g.extend flushChars s (.text t) = (g', s') ∧ s'.Calm ∧
      g'.Saying prompt answer reader rest := by
  have hlonger : ∀ f ∈ g.preview ++ [.text t], ∃ t, f = Fragment.text t := by
    intro f hf
    rcases List.mem_append.1 hf with hf | hf
    · exact h.preview f hf
    · exact ⟨t, List.mem_singleton.1 hf⟩
  have hput : Saying prompt answer reader rest
      { g with preview := g.preview ++ [.text t], previewSize := g.previewSize + t.length } :=
    ⟨h.reader_eq, h.prompt_eq, h.expired_eq, h.output_eq, hlonger⟩
  unfold Generation.extend
  simp only [Fragment.size]
  split
  · exact hput.flush hs
  · exact ⟨_, s, rfl, hs, hput⟩

/-- A call with time left goes on after a pause. -/
theorem Saying.pause (h : g.Saying prompt answer .streaming rest)
    (hyield : settings.yieldEvery ≠ 0) (htime : settings.leavesNoTime = false) :
    (g.rest settings).Saying prompt answer .streaming rest := by
  have hopen : g.isOver = false := by rw [isOver, h.reader_eq]
  unfold Generation.rest
  simp only [hopen, hyield, htime, Bool.and_false, Bool.or_false, Bool.false_eq_true, if_false]
  split
  · exact ⟨h.reader_eq, h.prompt_eq, h.expired_eq, h.output_eq, h.preview⟩
  · exact h

/-- One more piece is said. -/
theorem Saying.token {t : Text} (h : g.Saying prompt answer .streaming (t :: rest)) (hs : s.Calm)
    (hyield : settings.yieldEvery ≠ 0) (htime : settings.leavesNoTime = false) :
    ∃ g' s', g.token settings s (.text t) = (g', s') ∧ s'.Calm ∧
      g'.Saying prompt answer .streaming rest := by
  obtain ⟨s₁, hfirst, hs₁⟩ : ∃ s₁,
      (if g.count = 0 then s.emit .streamActive else (s, none)) = (s₁, none) ∧ s₁.Calm := by
    split
    · exact ⟨_, hs.emit_eq _, hs.going, hs.passes⟩
    · exact ⟨s, rfl, hs⟩
  have hsaid : Saying prompt answer .streaming rest
      { g with output := g.output ++ t, count := g.count + 1 } := by
    refine ⟨h.reader_eq, h.prompt_eq, h.expired_eq, ?_, h.preview⟩
    show (g.output ++ t) ++ rest.flatten = answer
    rw [List.append_assoc, ← List.flatten_cons]
    exact h.output_eq
  obtain ⟨g₂, s₂, hextend, hs₂, hput⟩ := hsaid.extend hs₁ settings.flushChars t
  have hgoing : ¬ s.cancelled = true := by simp [hs.going]
  refine ⟨g₂.rest settings, s₂, ?_, hs₂, hput.pause hyield htime⟩
  unfold Generation.token
  rw [if_neg hgoing]
  simp only [Fragment.asText, hfirst, hextend]

theorem Saying.ended (h : g.Saying prompt answer .streaming []) (hs : s.Calm) :
    ∃ g' s', g.ended s = (g', s') ∧ s'.Calm ∧ g'.Saying prompt answer .settling [] := by
  obtain ⟨g₁, s₁, hsent, hs₁, h₁⟩ : ∃ g₁ s₁,
      (if g.preview.isEmpty then (g, s) else g.flush s) = (g₁, s₁) ∧ s₁.Calm ∧
        g₁.Saying prompt answer .streaming [] := by
    split
    · exact ⟨g, s, rfl, hs, h⟩
    · exact h.flush hs
  have hopen : g₁.isOver = false := by rw [isOver, h₁.reader_eq]
  refine ⟨{ g₁ with reader := .settling }, s₁, ?_, hs₁, ?_⟩
  · unfold Generation.ended
    simp only [hsent, hopen, Bool.false_eq_true, if_false]
  · exact ⟨rfl, h₁.prompt_eq, h₁.expired_eq, h₁.output_eq, h₁.preview⟩

/-! #### Signals -/

/-- The engine is called. -/
theorem Saying.start (h : g.Saying prompt answer .entered rest) (hs : s.Calm) :
    ∃ g' s', g.start s = (g', s') ∧ s'.Calm ∧ g'.Saying prompt answer .opening rest :=
  ⟨_, _, rfl, hs.call _ _, rfl, h.prompt_eq, h.expired_eq, h.output_eq, h.preview⟩

/-- The engine answers with a handle. -/
theorem Saying.signal_opened (settings : Settings) (h : g.Saying prompt answer .opening rest)
    (hs : s.Calm) : ∃ g' s', g.signal settings s .opened = (g', s') ∧ s'.Calm ∧
      g'.Saying prompt answer .streaming rest := by
  refine ⟨{ g with reader := .streaming }, { s with context := s.context.attach g.number }, ?_,
    hs.attach _, rfl, h.prompt_eq, h.expired_eq, h.output_eq, h.preview⟩
  have hgoing : ¬ Scene.cancelled { s with context := s.context.attach g.number } = true := by
    simp [(hs.attach g.number).going]
  unfold Generation.signal
  rw [h.reader_eq]
  simp only
  rw [if_neg hgoing]

theorem Saying.signal_token {t : Text} (h : g.Saying prompt answer .streaming (t :: rest))
    (hs : s.Calm) (hyield : settings.yieldEvery ≠ 0) (htime : settings.leavesNoTime = false) :
    ∃ g' s', g.signal settings s (.token (.text t)) = (g', s') ∧ s'.Calm ∧
      g'.Saying prompt answer .streaming rest := by
  obtain ⟨g', s', htoken, hs', hg'⟩ := h.token hs hyield htime
  refine ⟨g', s', ?_, hs', hg'⟩
  unfold Generation.signal
  rw [h.reader_eq]
  exact htoken

theorem Saying.signal_ended (settings : Settings) (h : g.Saying prompt answer .streaming [])
    (hs : s.Calm) : ∃ g' s', g.signal settings s .ended = (g', s') ∧ s'.Calm ∧
      g'.Saying prompt answer .settling [] := by
  obtain ⟨g', s', hended, hs', hg'⟩ := h.ended hs
  refine ⟨g', s', ?_, hs', hg'⟩
  unfold Generation.signal
  rw [h.reader_eq]
  exact hended

theorem Saying.signal_settled (settings : Settings) (h : g.Saying prompt answer .settling [])
    (hs : s.Calm) : ∃ g' s', g.signal settings s .settled = (g', s') ∧ s'.Calm ∧
      g'.Saying prompt answer (.stopped none) [] := by
  refine ⟨g.finish none, s, ?_, hs, rfl, h.prompt_eq, h.expired_eq, h.output_eq, h.preview⟩
  unfold Generation.signal
  rw [h.reader_eq]

/-- The call comes to the answer. -/
theorem Saying.outcome?_eq (settings : Settings) (h : g.Saying prompt answer (.stopped none) [])
    (hs : s.Calm) : g.outcome? settings s = some (.ok answer) := by
  have houtput := h.output_eq
  rw [List.flatten_nil, List.append_nil] at houtput
  unfold Generation.outcome?
  rw [h.reader_eq]
  simp only [hs.going, Bool.false_eq_true, if_false, houtput]

end Generation

namespace Ladder

theorem step_of_running {l : Ladder} {g : Generation} {x : Signal} (settings : Settings) (s : Scene)
    (hcourse : l.course = .running g) (hx : x ≠ .resume) : l.step settings s x =
      ({ l with course := .running (g.signal settings s x).1 }, (g.signal settings s x).2) := by
  cases x with
  | resume => exact absurd rfl hx
  | _ => simp only [step, hcourse]

theorem turn_of_saying_entered {l : Ladder} {g : Generation} {s : Scene} {prompt answer : Text}
    {rest : List Text} (settings : Settings) (h : g.Saying prompt answer .entered rest)
    (hs : s.Calm) : ∃ g' s', l.turn settings s g = ({ l with course := .running g' }, s') ∧
      s'.Calm ∧ g'.Saying prompt answer .opening rest := by
  obtain ⟨g', s', hstart, hs', hg'⟩ := h.start hs
  refine ⟨g', s', ?_, hs', hg'⟩
  unfold turn
  rw [h.reader_eq]
  simp only [hstart]

theorem turn_of_saying_stopped {l : Ladder} {g : Generation} {s : Scene} {prompt answer : Text}
    (settings : Settings) (h : g.Saying prompt answer (.stopped none) []) (hs : s.Calm) :
    l.turn settings s g = ({ l with course := .closing (.ok answer) }, s.release) := by
  have houtcome := h.outcome?_eq settings hs
  unfold turn
  rw [h.reader_eq]
  simp only [houtcome]

theorem start_of_calm {s : Scene} (hs : s.Calm) (errand : Option Errand) (rung : Rung)
    (options : SamplingOptions) : start errand rung options s =
      ⟨errand, rung, options, .running { prompt := rung.prompt, options := options }⟩ := by
  have hgoing : ¬ s.cancelled = true := by simp [hs.going]
  unfold start enter
  rw [if_neg hgoing]

end Ladder

namespace Run

/-- What is asked of the engine for a chunk. -/
def errandFor (r : Run) (c : Chunk) : Errand where
  code := c.text
  report := r.partReport c
  focus := r.request.focus
  context := c.context
  fast := r.request.fast
  maxRetries := r.settings.maxTruncationRetries

def promptFor (r : Run) (c : Chunk) : Text := (r.errandFor c).prompt 0

/-- The ladder for a chunk, which stays on its first rung. -/
def ladderFor (r : Run) (c : Chunk) (course : Course) : Ladder where
  errand := some (r.errandFor c)
  rung := (r.errandFor c).first 0
  options := ⟨Request.tokenBudget c.text r.request.fast, r.settings.temperature, r.settings.topP⟩
  course := course

/-- A chunk is asked for, and so much of the answer has still to be said. -/
def Calling (base : Run) (p : Parts) (answer : Text) (reader : Reader) (rest : List Text)
    (control : Control) : Prop :=
  ∃ g, control = .asking (.parts p) (base.ladderFor p.chunk (.running g)) ∧
    g.Saying (base.promptFor p.chunk) answer reader rest

theorem step_asking {r : Run} {job : Job} {l : Ladder} {x : Signal}
    (hcontrol : r.control = .asking job l) (hcancel : x ≠ .cancel) (htick : x ≠ .tick) :
    r.step x = ({ r with scene := (l.step r.settings r.scene x).2 } : Run).withLadder job
      (l.step r.settings r.scene x).1 := by
  unfold step
  rw [hcontrol]
  cases x with
  | cancel => exact absurd rfl hcancel
  | tick => exact absurd rfl htick
  | _ => rfl

theorem pending?_of_opening {base : Run} {p : Parts} {answer : Text} {rest : List Text}
    {control : Control} (h : Calling base p answer .opening rest control) :
    control.pending? = some (base.promptFor p.chunk) := by
  obtain ⟨g, rfl, hsaying⟩ := h
  have hreader := hsaying.reader_eq
  rw [← hsaying.prompt_eq]
  cases g
  simp only at hreader
  rw [hreader]
  rfl

theorem pending?_of_not_opening {base : Run} {p : Parts} {answer : Text} {reader : Reader}
    {rest : List Text} {control : Control} (h : Calling base p answer reader rest control)
    (hreader : reader ≠ .opening) : control.pending? = none := by
  obtain ⟨g, rfl, hsaying⟩ := h
  rw [← hsaying.reader_eq] at hreader
  cases g with
  | mk _ _ _ reader =>
      cases reader with
      | opening => exact absurd rfl hreader
      | _ => rfl

section Stages

variable {base : Run} {p : Parts} {answer : Text} {write : Text → List Text}

/-- A step of the call that the ladder is at leads from stage to stage. -/
theorem leads_of_ladder {reader reader' : Reader} {rest rest' : List Text} {due due' : List Signal}
    {x : Signal} (hcancel : x ≠ .cancel) (htick : x ≠ .tick)
    (hgo : ∀ t, At base (Calling base p answer reader rest) due t →
      t.go write = ⟨t.run.step x, due'⟩)
    (hstep : ∀ (g : Generation) (s : Scene), s.Calm →
      g.Saying (base.promptFor p.chunk) answer reader rest →
      ∃ g' s', (base.ladderFor p.chunk (.running g)).step base.settings s x =
          (base.ladderFor p.chunk (.running g'), s') ∧ s'.Calm ∧
        g'.Saying (base.promptFor p.chunk) answer reader' rest') :
    Leads write (At base (Calling base p answer reader rest) due)
      (At base (Calling base p answer reader' rest') due') := by
  refine leads_of_step hgo fun r hready hcalling => ?_
  obtain ⟨g, hcontrol, hsaying⟩ := hcalling
  obtain ⟨g', s', hladder, hcalm, hsaying'⟩ := hstep g r.scene hready.calm hsaying
  rw [← hready.same.1] at hladder
  rw [step_asking hcontrol hcancel htick, hladder]
  exact ⟨⟨hready.same, hcalm⟩, g', rfl, hsaying'⟩

theorem leads_of_signal {reader reader' : Reader} {rest rest' : List Text} {due : List Signal}
    {x : Signal} (hresume : x ≠ .resume) (hcancel : x ≠ .cancel) (htick : x ≠ .tick)
    (hstep : ∀ (g : Generation) (s : Scene), s.Calm →
      g.Saying (base.promptFor p.chunk) answer reader rest →
      ∃ g' s', g.signal base.settings s x = (g', s') ∧ s'.Calm ∧
        g'.Saying (base.promptFor p.chunk) answer reader' rest') :
    Leads write (At base (Calling base p answer reader rest) (x :: due))
      (At base (Calling base p answer reader' rest') due) := by
  refine leads_of_ladder hcancel htick ?_ fun g s hs hg => ?_
  · intro t h
    rw [Talk.go, h.due_eq]
  · obtain ⟨g', s', hsignal, hs', hg'⟩ := hstep g s hs hg
    refine ⟨g', s', ?_, hs', hg'⟩
    rw [Ladder.step_of_running base.settings s rfl hresume, hsignal]
    rfl

/-- The run calls the engine. -/
theorem leads_entered {rest : List Text} :
    Leads write (At base (Calling base p answer .entered rest) [])
      (At base (Calling base p answer .opening rest) []) := by
  refine leads_of_ladder (x := .resume) (by simp) (by simp) ?_ fun g s hs hg => ?_
  · intro t h
    rw [Talk.go, h.due_eq]
    simp only [pending?_of_not_opening h.control (by simp)]
  · exact Ladder.turn_of_saying_entered base.settings hg hs

/-- The engine answers with a handle. -/
theorem leads_opening :
    Leads write (At base (Calling base p answer .opening (write (base.promptFor p.chunk))) [])
      (At base (Calling base p answer .streaming (write (base.promptFor p.chunk)))
        (spoken (write (base.promptFor p.chunk)))) := by
  refine leads_of_ladder (x := .opened) (by simp) (by simp) ?_ fun g s hs hg => ?_
  · intro t h
    rw [Talk.go, h.due_eq]
    simp only [pending?_of_opening h.control]
  · obtain ⟨g', s', hsignal, hs', hg'⟩ := hg.signal_opened base.settings hs
    refine ⟨g', s', ?_, hs', hg'⟩
    rw [Ladder.step_of_running base.settings s rfl (by simp), hsignal]
    rfl

/-- The engine says its pieces. -/
theorem leads_streaming (hyield : base.settings.yieldEvery ≠ 0)
    (htime : base.settings.leavesNoTime = false) (pieces : List Text) :
    Leads write (At base (Calling base p answer .streaming pieces) (spoken pieces))
      (At base (Calling base p answer .streaming []) [.ended, .settled]) := by
  induction pieces with
  | nil => exact Leads.of_imp fun _ h => h
  | cons t pieces ih =>
      exact Leads.trans (leads_of_signal (by simp) (by simp) (by simp)
        fun g s hs hg => hg.signal_token hs hyield htime) ih

/-- The stream ends, and the result is there. -/
theorem leads_ended :
    Leads write (At base (Calling base p answer .streaming []) [.ended, .settled])
      (At base (Calling base p answer (.stopped none) []) []) := by
  have hended : Leads write (At base (Calling base p answer .streaming []) [.ended, .settled])
      (At base (Calling base p answer .settling []) [.settled]) :=
    leads_of_signal (by simp) (by simp) (by simp) fun g s hs hg =>
      hg.signal_ended base.settings hs
  exact hended.trans (leads_of_signal (by simp) (by simp) (by simp) fun g s hs hg =>
    hg.signal_settled base.settings hs)

/-- The call is decided, and its reader put away. -/
theorem leads_stopped :
    Leads write (At base (Calling base p answer (.stopped none) []) [])
      (At base (· = .asking (.parts p) (base.ladderFor p.chunk (.closing (.ok answer)))) []) := by
  refine leads_of_step (x := .resume) ?_ fun r hready hcalling => ?_
  · intro t h
    rw [Talk.go, h.due_eq]
    simp only [pending?_of_not_opening h.control (by simp)]
  · obtain ⟨g, hcontrol, hsaying⟩ := hcalling
    have hladder : (base.ladderFor p.chunk (.running g)).step r.settings r.scene .resume =
        (base.ladderFor p.chunk (.closing (.ok answer)), r.scene.release) :=
      Ladder.turn_of_saying_stopped r.settings hsaying hready.calm
    rw [step_asking hcontrol (by simp) (by simp), hladder]
    exact ⟨⟨hready.same, hready.calm.release⟩, rfl⟩

/-- The answer is taken at once if it is not blank and looks complete. -/
theorem leads_closing (hblank : Text.blank answer = false)
    (hcomplete : Dangling.looksIncomplete answer = false) :
    Leads write
      (At base (· = .asking (.parts p) (base.ladderFor p.chunk (.closing (.ok answer)))) [])
      (At base (· = .idling (.parts p) (.ok answer)) []) := by
  refine leads_of_turn rfl fun r hready hcontrol => ?_
  have htake : (base.errandFor p.chunk).next ((base.errandFor p.chunk).first 0) answer = .take := by
    unfold Errand.next
    simp only [hblank, hcomplete, Bool.and_false, Bool.false_eq_true, if_false]
  have hladder : (base.ladderFor p.chunk (.closing (.ok answer))).step r.settings r.scene .resume =
      (base.ladderFor p.chunk (.ended (.ok answer)), r.scene) := by
    show (base.ladderFor p.chunk (.closing (.ok answer))).proceed r.scene (.ok answer) = _
    unfold Ladder.proceed
    simp only [ladderFor, htake]
    rfl
  rw [step_asking hcontrol (by simp) (by simp), hladder]
  exact ⟨⟨hready.same, hready.calm⟩, rfl⟩

/-- **A chunk that is asked for is answered**, if the engine has time for it. -/
theorem leads_answered (hyield : base.settings.yieldEvery ≠ 0)
    (htime : base.settings.leavesNoTime = false) (hblank : Text.blank answer = false)
    (hcomplete : Dangling.looksIncomplete answer = false) :
    Leads write (At base (Calling base p answer .entered (write (base.promptFor p.chunk))) [])
      (At base (· = .idling (.parts p) (.ok answer)) []) :=
  ((leads_entered.trans leads_opening).trans (leads_streaming hyield htime _)).trans
    ((leads_ended.trans leads_stopped).trans (leads_closing hblank hcomplete))

end Stages

end Run
end Refinery
