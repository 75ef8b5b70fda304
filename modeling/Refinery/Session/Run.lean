import Refinery.Answer.Verdict
import Refinery.Chunk.Basic
import Refinery.Chunk.Layout
import Refinery.Request.Basic
import Refinery.Session.Ladder

/-!
A run takes one request from its report to its outcome. A text of one chunk is asked for once, and
once more with insistence if it came back unchanged though something was found in it. The chunks of
a longer text are asked for in order; one whose output is not accepted keeps its text. The run ends
with `done` or with `error`.
-/

namespace Refinery

/-- The warning that some chunks kept their text. -/
def keptWarning (kept total : Nat) : Option Text :=
  if kept = 0 then none
  else some (Text.ofNat kept ++ " of ".toList ++ Text.ofNat total ++
    " chunk(s) kept their original code because the model output could not be validated.".toList)

theorem keptWarning_zero (total : Nat) : keptWarning 0 total = none := rfl

theorem keptWarning_of_pos {kept : Nat} (h : 0 < kept) (total : Nat) : keptWarning kept total =
    some (Text.ofNat kept ++ " of ".toList ++ Text.ofNat total ++
      " chunk(s) kept their original code because the model output could not be validated.".toList) :=
  if_neg (Nat.ne_of_gt h)

/-- The outcome for a text that was revised chunk by chunk, from the analyses of the text and of the
joined chunks. -/
def joinedOutcome (source revised : Text) (before after : Analysis) (total kept : Nat) :
    Except Real64.Fault Outcome :=
  (Verdict.scorePercent after.score).map fun confidence => {
    algorithm := Outcome.algorithmOf after
    complexityBefore := Outcome.complexityOf before
    complexityAfter := Outcome.complexityOf after
    bottleneck := Outcome.bottleneckOf after.findings
    strategy := "Multi-chunk optimization applied".toList
    tradeoffs := Outcome.noTradeoffs
    improvement := "Optimized across ".toList ++ Text.ofNat total ++ " chunks".toList
    confidence := confidence
    explanation := "Code was split into ".toList ++ Text.ofNat total ++
      " chunks and each was optimized independently.".toList
    code := revised
    parsed := true
    noChange := revised == source
    findings := after.findings
    advice := after.advice
    score := some after.score
    isC := before.language == ['C']
    warning := keptWarning kept total }

theorem exists_joinedOutcome (source revised : Text) (before : Analysis) (after : Report)
    (total kept : Nat) : ∃ o, joinedOutcome source revised before after total kept = .ok o := by
  obtain ⟨p, hp⟩ := Verdict.exists_scorePercent after.isShare_score
  rw [joinedOutcome, hp]
  exact ⟨_, rfl⟩

/-- The outcome by the reports on the two texts, which there always is. -/
def chunkedOutcome (source revised : Text) (before after : Report) (total kept : Nat) : Outcome :=
  certain (joinedOutcome source revised before after total kept)
    (exists_joinedOutcome source revised before after total kept)

theorem joinedOutcome_report (source revised : Text) (before after : Report) (total kept : Nat) :
    joinedOutcome source revised before after total kept =
      .ok (chunkedOutcome source revised before after total kept) :=
  eq_ok_certain _

/-- The outcome delivers the revised text, compares it to the letter, and tells of the chunks that
were kept. -/
theorem chunkedOutcome_spec (source revised : Text) (before after : Report) (total kept : Nat) :
    let o := chunkedOutcome source revised before after total kept
    o.code = revised ∧ o.noChange = (revised == source) ∧ o.warning = keptWarning kept total ∧
      Verdict.scorePercent after.score = .ok o.confidence := by
  have h := joinedOutcome_report source revised before after total kept
  unfold joinedOutcome at h
  cases hscore : Verdict.scorePercent after.score with
  | error why =>
      rw [hscore] at h
      cases h
  | ok percent =>
      rw [hscore] at h
      rw [← Except.ok.inj h]
      exact ⟨rfl, rfl, rfl, rfl⟩

def retryWarning : Text :=
  "Required retry — initial attempt returned unchanged code".toList

/-- A chunked text: the chunk at hand with its report, the chunks after it, and what became of those
before it. -/
structure Parts where
  chunk : Chunk
  report : Report
  later : List Chunk
  outputs : List Text := []
  kept : Nat := 0
  total : Nat

inductive Job where
  /-- The whole text; the outcome of the first ladder if this is the second. -/
  | whole (first : Option Outcome)
  | parts (p : Parts)

inductive Control where
  | asking (job : Job) (ladder : Ladder)
  /-- A ladder is over; the hints are being stopped. -/
  | idling (job : Job) (result : Except Failure Text)
  /-- In front of a chunk after the first. -/
  | pausing (p : Parts)
  | ended (outcome : Option Outcome)

/-- One request on its way. -/
structure Run where
  settings : Settings
  request : Request
  report : Report
  scene : Scene
  control : Control

namespace Run

def tell (r : Run) (e : Event) : Run := { r with scene := r.scene.tell e }

def phase (r : Run) (p : Phase) : Run := { r with scene := r.scene.act (.phase p) }

/-- No cancellation reaches the run from here on. -/
def dismiss (r : Run) : Run := { r with scene := { r.scene with admitted := false } }

/-- Binds the name that is logged with a request. -/
def bind (r : Run) (name : Text) : Run := { r with scene := r.scene.act (.bind name) }

def unbind (r : Run) : Run := { r with scene := r.scene.act .unbind }

/-- The phase and the message that a failure ends with. -/
def verdictOn : Failure → Phase × Text
  | .cancelled m => (.idle, m)
  | .timedOut limit => (.failed, Failure.timeoutReport limit)
  | why => (.failed, why.report)

/-- Ends with an error. It is told while the request's name is still bound. -/
def fail (r : Run) (why : Failure) : Run :=
  let (p, m) := verdictOn why
  { ((r.phase p).tell (.error m)).dismiss.unbind with control := .ended none }

/-- Ends with an outcome, unless the request was cancelled. -/
def succeed (r : Run) (o : Outcome) : Run :=
  if r.scene.cancelled then r.fail Generation.cancelledFailure
  else { ((r.phase .done).dismiss.unbind).tell (.done o) with control := .ended (some o) }

/-- Goes on with a ladder, or puts it away where it is over. -/
def withLadder (r : Run) (job : Job) (l : Ladder) : Run :=
  match l.result? with
  | none => { r with control := .asking job l }
  | some result => { r with control := .idling job result }

/-- Starts a ladder for a text. -/
def ask (r : Run) (job : Job) (code : Text) (report : Report) (level : Int) (insist : Bool)
    (context : Option Text) : Run :=
  let r := r.phase .generating
  let r := if insist then r else r.tell (.substage (.hint r.scene.context.hint))
  let errand : Errand := {
    code := code
    report := report
    focus := r.request.focus
    insist := insist
    context := context
    fast := r.request.fast
    maxRetries := r.settings.maxTruncationRetries }
  let options : SamplingOptions :=
    ⟨Request.tokenBudget code r.request.fast, r.settings.temperature, r.settings.topP⟩
  r.withLadder job (Ladder.start (some errand) (errand.first level) options r.scene)

def judge (r : Run) (output : Text) : Outcome :=
  Verdict.outcome output r.request.code r.report (some r.report.language) {}

/-- After the first ladder: ends, or asks once more. -/
def afterFirst (r : Run) (output : Text) : Run :=
  let r := (r.phase .validating).tell (.stage .finalizing)
  let o := r.judge output
  if o.noChange && !r.report.findings.isEmpty then
    if r.scene.cancelled then r.fail Generation.cancelledFailure
    else
      let r := (r.phase .retrying).tell (.stage .optimizing)
      let r := (r.tell (.substage .retrying)).tell .retryClear
      r.ask (.whole (some o)) r.request.code r.report 1 true none
  else r.succeed o

/-- After the second ladder: its output counts if it changed the text. -/
def afterSecond (r : Run) (first : Outcome) (output : Option Text) : Run :=
  let r := (r.phase .validating).tell (.stage .finalizing)
  match output with
  | none => r.succeed first
  | some output =>
    let o := r.judge output
    r.succeed (if o.noChange then first else { o with warning := some retryWarning })

/-! ### Chunks -/

/-- Asks for the chunk at hand, unless the request was cancelled. -/
def askPart (r : Run) (p : Parts) : Run :=
  if r.scene.cancelled then r.fail Generation.cancelledFailure
  else
    (r.tell (.chunkProgress (p.chunk.index + 1) p.total)).ask (.parts p) p.chunk.text p.report 0
      false p.chunk.context

/-- The report on a chunk, in the language of the whole text. -/
def partReport (r : Run) (c : Chunk) : Report :=
  Report.ofText c.text r.report.language Chunk.defaultSize

/-- What a chunk becomes, and whether its output was not accepted. -/
def partText (r : Run) (p : Parts) (output : Text) : Text × Bool :=
  let o := Verdict.outcome output p.chunk.text p.report (some r.report.language) {}
  if o.parsed && o.noChange then (p.chunk.text, false)
  else if o.parsed then (Chunk.reseat p.chunk.text o.code, false)
  else (p.chunk.text, true)

def assemble (r : Run) (p : Parts) (outputs : List Text) (kept : Nat) : Run :=
  let r := r.tell (.stage .finalizing)
  let revised := Text.unlines outputs
  let after := Report.ofText revised r.report.language Chunk.defaultSize
  r.succeed (chunkedOutcome r.request.code revised r.report after p.total kept)

/-- After the ladder of a chunk: goes to the next one, or joins them all. -/
def afterPart (r : Run) (p : Parts) (output : Text) : Run :=
  let r := r.phase .validating
  let (text, isKept) := r.partText p output
  let r := if isKept then r.tell (.substage .keptChunk) else r
  let outputs := p.outputs ++ [text]
  let kept := if isKept then p.kept + 1 else p.kept
  match p.later with
  | [] => r.assemble p outputs kept
  | c :: later =>
    let r := r.tell (.stage .refining)
    { r with control := .pausing ⟨c, r.partReport c, later, outputs, kept, p.total⟩ }

def afterLadder (r : Run) (job : Job) (result : Except Failure Text) : Run :=
  let r := r.tell .streamIdle
  match job, result with
  | .whole none, .ok output => r.afterFirst output
  | .whole (some first), .ok output => r.afterSecond first (some output)
  | .whole (some first), .error (.emptyOutput _) => r.afterSecond first none
  | .parts p, .ok output => r.afterPart p output
  | _, .error why => r.fail why

/-- Begins under a name: makes the report and asks for the text or its first chunk. -/
def begin (settings : Settings) (name : Text) (request : Request) (host : Host) : Run :=
  let report := Report.ofText request.code request.language settings.chunkSize
  let r : Run := ⟨settings, request, report, { host := host.shielded }, .ended none⟩
  let r := ((r.bind name).phase .analyzing).tell (.stage .understanding)
  match Chunk.ofTexts report.chunks with
  | c :: d :: later =>
    let r := (r.phase .chunking).tell (.stage .optimizing)
    r.askPart ⟨c, r.partReport c, d :: later, [], 0, report.chunks.length⟩
  | _ => (r.tell (.stage .optimizing)).ask (.whole none) request.code report 0 false none

def step (r : Run) (x : Signal) : Run :=
  match r.control, x with
  | _, .cancel => { r with scene := r.scene.cancel }
  | .asking .., .tick =>
    let r := { r with scene := { r.scene with context := r.scene.context.turn hints.length } }
    r.tell (.substage (.hint r.scene.context.hint))
  | .asking job l, x =>
    let (l, s) := l.step r.settings r.scene x
    { r with scene := s }.withLadder job l
  | .idling job result, .resume => r.afterLadder job result
  | .pausing p, .resume => r.askPart p
  | _, _ => r

def isOver (r : Run) : Bool :=
  match r.control with
  | .ended _ => true
  | _ => false

def outcome? (r : Run) : Option Outcome :=
  match r.control with
  | .ended o => o
  | _ => none

/-- Takes what the run has done since this was last asked, oldest first. -/
def takeActs (r : Run) : List Act × Run :=
  (r.scene.acts.reverse, { r with scene := { r.scene with acts := [] } })

end Run
end Refinery
