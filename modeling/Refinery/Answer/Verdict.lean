import Refinery.Answer.Brackets
import Refinery.Answer.Dangling
import Refinery.Answer.Declared
import Refinery.Answer.Extract
import Refinery.Answer.Outcome
import Refinery.Answer.Similarity

/-!
Judging a model's output against the given text. Output is accepted when code can be extracted
from it, is whole or can be repaired, is long enough, has lost no name, and is like enough to it.
Otherwise the first test that fails is the reason to keep the given text.
-/

namespace Refinery

/-- The limits of the tests. Ratios and percentages below a limit fail. -/
structure Thresholds where
  smallMaxLines : Int := 10
  smallMinRatio : Real64 := .finite (Number.binary64 (10 / 100))
  mediumMaxLines : Int := 40
  mediumMinRatio : Real64 := .finite (Number.binary64 (30 / 100))
  largeMinRatio : Real64 := .finite (Number.binary64 (40 / 100))
  similarityMin : Int := 35
  restructuredMin : Int := 25

namespace Thresholds
open Text

/-- The share of the given text's lines that has to be there, by the size of that text. -/
def minRatio (t : Thresholds) (meaningful : Nat) : Real64 :=
  if (meaningful : Int) ≤ t.smallMaxLines then t.smallMinRatio
  else if (meaningful : Int) ≤ t.mediumMaxLines then t.mediumMinRatio
  else t.largeMinRatio

/-- What the names of algorithms that get restructured contain. -/
def restructuredMarks : List String :=
  ["sort", "search", "merge", "partition", "heap", "bfs", "dfs", "binary"]

/-- The least similarity for an algorithm; those that get restructured have a lower one. -/
def floor (t : Thresholds) (algorithm : Text) : Int :=
  if restructuredMarks.any fun mark => hasPart mark.toList (folded algorithm) then
    t.restructuredMin
  else t.similarityMin

end Thresholds

/-- Why output was not accepted. -/
inductive Rejection where
  | noCode
  | cutOff
  | tooShort (lines sourceLines : Nat)
  | loses (names : Declared)
  | unlike (percent : Int)
  deriving DecidableEq

namespace Rejection
open Text

def message : Rejection → Text
  | noCode => "Could not extract any code from model output.".toList
  | cutOff =>
    "Model output was truncated and could not be repaired; original code preserved.".toList
  | tooShort n m =>
    "Model output appears severely truncated (".toList ++ Text.ofNat n ++
      " meaningful lines vs ".toList ++ Text.ofNat m ++ "); original preserved.".toList
  | loses names =>
    "Model dropped critical elements (".toList ++ names.describe ++
      "); original code preserved to prevent data loss.".toList
  | unlike p =>
    "Optimized code similarity too low (".toList ++ Text.ofInt p ++
      "%); likely hallucination; original preserved.".toList

end Rejection

/-- Output that passed all tests. -/
structure Acceptance where
  code : Text
  repaired : Bool
  noChange : Bool
  percent : Int
  deriving DecidableEq

/-- The value of a computation that does not fail. -/
def certain {ε α : Type} (x : Except ε α) (h : ∃ a, x = .ok a) : α :=
  x.toOption.get (by
    obtain ⟨a, rfl⟩ := h
    rfl)

theorem eq_ok_certain {ε α : Type} {x : Except ε α} (h : ∃ a, x = .ok a) :
    x = .ok (certain x h) := by
  obtain ⟨a, rfl⟩ := h
  rfl

namespace Verdict
open Number Text

/-- The share of the given text's meaningful lines; all of them where it has none. -/
def sizeRatio (sourceLines lines : Nat) : Rat :=
  if sourceLines = 0 then 1 else binary64 (mkRat lines sourceLines)

/-- The code in a raw text, and whether it had to be repaired. -/
def whole (raw : Text) : Except Rejection (Text × Bool) :=
  match Extract.code? raw with
  | none => .error .noCode
  | some code => match Brackets.repair? code with
    | some repaired => .ok (repaired, true)
    | none => if Dangling.isTruncated code then .error .cutOff else .ok (code, false)

def compare (source code : Text) (repaired : Bool) (algorithm : Text) (limits : Thresholds) :
    Except Rejection Acceptance :=
  let sourceLines := Similarity.meaningfulLines source
  let newLines := Similarity.meaningfulLines code
  let names := Declared.lost source code
  let noChange := Similarity.unchanged source code
  let percent := if noChange then 100 else Similarity.percent binary64 source code
  if (limits.minRatio sourceLines).exceeds (sizeRatio sourceLines newLines) then
    .error (.tooShort newLines sourceLines)
  else if !names.isEmpty then .error (.loses names)
  else if !noChange && percent < limits.floor algorithm then .error (.unlike percent)
  else .ok ⟨code, repaired, noChange, percent⟩

def judge (raw source algorithm : Text) (limits : Thresholds) : Except Rejection Acceptance := do
  let (code, repaired) ← whole raw
  compare source code repaired algorithm limits

def unchangedExplanation : Text :=
  "Code is already well-optimized. No meaningful changes found.".toList

def repairedWarning : Text :=
  "Model output was truncated; missing closing brackets were appended automatically.".toList

/-- The most confidence in a change to C code, in code below `alikePercent`, and in repaired
code. -/
def cCap : Int := 70

def unlikeCap : Int := 60

def alikePercent : Int := 80

def repairedCap : Int := 50

/-- A score as a percentage. -/
def scorePercent (score : Real64) : Except Real64.Fault Int := score.hundredfold.halfUp

/-- What the confidence in accepted code starts from. The score counts for a change only. -/
def basis (a : Acceptance) (score : Real64) : Except Real64.Fault Int :=
  if a.noChange then .ok 100 else scorePercent score

def confidence (a : Acceptance) (basis : Int) (isC : Bool) : Int :=
  let c := if !a.noChange && isC then min basis cCap else basis
  let c := if a.percent < alikePercent then min c unlikeCap else c
  if a.repaired then min c repairedCap else c

def accepted (a : Acceptance) (r : Analysis) (given : Option Text) (basis : Int) : Outcome :=
  let isC := Outcome.isInC given r
  let complexity := Outcome.complexityOf r
  { algorithm := Outcome.algorithmOf r
    complexityBefore := complexity
    complexityAfter := if a.noChange then complexity else complexity.improved
    bottleneck := Outcome.bottleneckOf r.findings
    strategy :=
      if a.noChange then Outcome.unchangedStrategy
      else match r.advice with
        | [] => Outcome.plainStrategy
        | first :: _ => first.action
    tradeoffs := Outcome.noTradeoffs
    improvement := if a.noChange then Outcome.noImprovement else Outcome.gain r
    confidence := confidence a basis isC
    explanation :=
      if a.noChange then unchangedExplanation
      else "Applied conservative optimization (".toList ++ Text.ofInt a.percent ++
        "% similarity preserved). ".toList ++ Outcome.explain r
    code := a.code
    parsed := true
    noChange := a.noChange
    findings := r.findings
    advice := r.advice
    score := some r.score
    isC := isC
    warning := if a.repaired then some repairedWarning else none }

/-- The outcome of one model output for one text. A score of which a hundred times is no finite
number makes no percentage, and an accepted change has no outcome with it. -/
def validate (raw source : Text) (r : Analysis) (given : Option Text) (limits : Thresholds) :
    Except Real64.Fault Outcome :=
  match judge raw source r.algorithm limits with
  | .ok a => (basis a r.score).map (accepted a r given)
  | .error why => .ok (Outcome.kept source r why.message given)

theorem exists_scorePercent {score : Real64} (h : score.IsShare) :
    ∃ p, scorePercent score = .ok p := by
  obtain ⟨x, -, -, hx⟩ := h.hundredfold
  exact Real64.exists_halfUp_iff.2 (by rw [Real64.isFinite, hx, Option.isSome_some])

theorem exists_validate (raw source : Text) (r : Report) (given : Option Text)
    (limits : Thresholds) : ∃ o, validate raw source r given limits = .ok o := by
  obtain ⟨p, hp⟩ := exists_scorePercent r.isShare_score
  unfold validate basis
  rw [hp]
  split
  · split <;> exact ⟨_, rfl⟩
  · exact ⟨_, rfl⟩

/-- The outcome by the report on the text, which there always is. -/
def outcome (raw source : Text) (r : Report) (given : Option Text) (limits : Thresholds) :
    Outcome :=
  certain (validate raw source r given limits) (exists_validate raw source r given limits)

theorem validate_report (raw source : Text) (r : Report) (given : Option Text)
    (limits : Thresholds) : validate raw source r given limits =
      .ok (outcome raw source r given limits) :=
  eq_ok_certain _

end Verdict
end Refinery
