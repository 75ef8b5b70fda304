import Refinery.Review.Report

/-!
The outcome of a request, and how it is told from an analysis: the given text with the reason why
it was kept, or a revised text with what was gained.
-/

namespace Refinery

/-- What a request ends with. Where the given text was kept, `parsed` is false. -/
structure Outcome where
  algorithm : Text
  complexityBefore : Complexity
  complexityAfter : Complexity
  bottleneck : Text
  strategy : Text
  tradeoffs : Text
  improvement : Text
  confidence : Int
  explanation : Text
  code : Text
  parsed : Bool
  noChange : Bool
  findings : List Finding := []
  advice : List Advice := []
  score : Option Real64 := none
  isC : Bool := false
  warning : Option Text := none

namespace Outcome
open Text

def keptStrategy : Text := "Fallback - original preserved".toList

def unchangedStrategy : Text := "No change needed".toList

def plainStrategy : Text := "Conservative optimization applied".toList

def noImprovement : Text := "No measurable improvement".toList

def noTradeoffs : Text := "None".toList

def bottleneckOf (findings : List Finding) : Text :=
  match findings with
  | [] => "None detected".toList
  | f :: _ => f.description

def complexityOf (r : Analysis) : Complexity := orElse r.complexity Complexity.unknown

def algorithmOf (r : Analysis) : Text := orElse r.algorithm Algorithm.customLabel

/-- What was improved, and the first advice. -/
def explain (r : Analysis) : Text :=
  let high := r.findings.filter (·.severity == .high)
  let fixed : List Text :=
    if r.findings.isEmpty then []
    else if high.isEmpty then
      ["Improved ".toList ++ Text.ofNat r.findings.length ++ " detected pattern(s).".toList]
    else
      ["Fixed ".toList ++ Text.ofNat high.length ++ " high-severity issue(s): ".toList ++
        join ", ".toList (high.map (·.description)) ++ ['.']]
  let applied : List Text := match r.advice with
    | [] => []
    | a :: _ => ["Applied: ".toList ++ a.action ++ ['.']]
  orElse (join [' '] (fixed ++ applied)) "Performance optimization applied.".toList

/-- What a change is worth, judged by the gravest finding. -/
def gain (r : Analysis) : Text :=
  if r.findings.any (·.severity == .high) then "Significant - reduced time complexity".toList
  else if r.findings.any (·.severity == .medium) then "Moderate - improved efficiency".toList
  else "Minor optimization applied".toList

/-- A language given for a result, or else that of the analysis. -/
def languageOf (given : Option Text) (r : Analysis) : Language :=
  match given with
  | some l => orElse l r.language
  | none => r.language

/-- Changes to C code get less confidence. -/
def isInC (given : Option Text) (r : Analysis) : Bool := languageOf given r == ['C']

/-- The given text, and why it was kept. -/
def kept (source : Text) (r : Analysis) (reason : Text) (given : Option Text) : Outcome where
  algorithm := algorithmOf r
  complexityBefore := complexityOf r
  complexityAfter := complexityOf r
  bottleneck := bottleneckOf r.findings
  strategy := keptStrategy
  tradeoffs := noTradeoffs
  improvement := noImprovement
  confidence := 0
  explanation := reason
  code := source
  parsed := false
  noChange := true
  findings := r.findings
  advice := r.advice
  score := some r.score
  isC := isInC given r
  warning := some reason

def toJson (o : Outcome) : Json :=
  .mkObj ([
    ("algorithm", .str o.algorithm), ("complexity_before", .str o.complexityBefore),
    ("complexity_after", .str o.complexityAfter), ("bottleneck", .str o.bottleneck),
    ("strategy", .str o.strategy), ("optimization_strategy", .str o.strategy),
    ("tradeoffs", .str o.tradeoffs), ("estimated_improvement", .str o.improvement),
    ("confidence", .int o.confidence), ("explanation", .str o.explanation),
    ("optimized_code", .str o.code),
    ("detected_patterns", .arr (o.findings.map Finding.toJson)),
    ("possible_optimizations", .arr (o.advice.map Advice.toJson)),
    ("static_confidence_score", match o.score with
      | some s => .real s
      | none => .null),
    ("_parsed", .bool o.parsed), ("_no_change", .bool o.noChange)] ++
    (if o.isC then [("_c_language", .bool true)] else []) ++
    match o.warning with
    | some w => if w.isEmpty then [] else [("_parse_warning", .str w)]
    | none => [])

end Outcome
end Refinery
