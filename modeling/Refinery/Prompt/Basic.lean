import Refinery.Prompt.Example
import Refinery.Request.Focus
import Refinery.Review.Report

/-!
Prompts. Every prompt ends with the code in a fenced block and then the cursor, and nothing after
it. The first attempt gets the system text, an example and the task; later ones trade all of that
for short orders. A directive against cut-off answers can be put in front of the cursor, once.
-/

namespace Refinery

structure Prompt where
  system : Text
  user : Text

namespace Prompt
open Text

/-- What the model is told about its work. -/
def systemLines : List String := [
  "You are an expert code optimizer specializing in conservative, " ++
    "performance-focused improvements.",
  "",
  "Your core principles:",
  "1. **Preserve functionality** - Never break existing logic",
  "2. **Minimal changes** - Only modify what clearly improves performance",
  "3. **Maintain readability** - Keep code clean and understandable",
  "4. **Focus on bottlenecks** - Target actual performance issues",
  "5. **Respect language idioms** - Use language-appropriate patterns",
  "",
  "Optimization priorities (in order):",
  "1. Algorithmic improvements (O(n²) → O(n), etc.)",
  "2. Memory usage optimization",
  "3. Loop efficiency",
  "4. Redundant operation removal",
  "5. Modern language features",
  "",
  "Always return complete, valid code. If no meaningful optimization is possible, " ++
    "return the original code unchanged."]

def systemText : Text := unlines (systemLines.map String.toList)

/-- Where the model starts to write. -/
def cursor : Text := "Output:".toList

/-- The order against cut-off answers. -/
def directive : Text :=
  ("IMPORTANT: Return the COMPLETE optimized code, do not cut off " ++ "mid-sentence.").toList

/-- The level past which prompts do not get shorter. -/
def maxLevel : Int := 2

def full (p : Prompt) : Text := p.system ++ "\n\n".toList ++ p.user

def fenced (tag code : Text) : Text :=
  "```".toList ++ tag ++ ['\n'] ++ code ++ "\n```".toList

/-- The end of every prompt: the code and the cursor. -/
def ending (tag code : Text) : Text := fenced tag code ++ ['\n'] ++ cursor

/-- The order to change the code, with what is known to be wrong with it. -/
def insistence (findings : List Finding) : Text :=
  let issues := if findings.isEmpty then []
    else " (".toList ++ join "; ".toList (findings.map (·.description)) ++ [')']
  "This code has known issues".toList ++ issues ++
    ". You MUST change it; do not return it unchanged.".toList

/-- The part that shows what follows the code. -/
def contextPart (tag context : Text) : Text :=
  ("Context (the code that follows this input; read-only, do not include it in the output):" ++
    "\n").toList ++ fenced tag context ++ "\n\n".toList

def ofTask (code : Text) (report : Analysis) (focus : Focus) (insist : Bool)
    (context : Option Text) : Prompt :=
  let language := orElse report.language "JavaScript".toList
  let tag := Language.fenceTag language
  let order := "### YOUR TASK\nOptimize this ".toList ++ language ++ " (focus: ".toList ++
    focus.hint.toList ++
    ").\nReturn COMPLETE code in a fenced code block. Do not cut it off.\n".toList
  let insistence := if insist then insistence report.findings ++ ['\n'] else []
  let context := match context with
    | some c => if c.isEmpty then [] else contextPart tag c
    | none => []
  { system := systemText
    user := exampleFor language ++ "\n\n".toList ++ order ++ insistence ++ ['\n'] ++ context ++
      "Input:\n".toList ++ ending tag code }

/-- The short prompt of a later attempt; from `maxLevel` on it forbids explanations. -/
def short (code : Text) (language : Language) (level : Int) (insist : Bool)
    (findings : List Finding) : Text :=
  let language := orElse language "code".toList
  let order := if maxLevel ≤ level then
      "Return ONLY the optimized ".toList ++ language ++ (" code below in a fenced code block. " ++
        "Do not explain. Do not cut off.\n").toList
    else
      "Optimize this ".toList ++ language ++
        " code and return the complete result in a fenced code block:\n".toList
  order ++ (if insist then insistence findings ++ ['\n'] else []) ++
    ending (Language.fenceTag language) code

/-- The prompt of an attempt at a level: full at level 0, short above. -/
def forLevel (code : Text) (report : Analysis) (focus : Focus) (insist : Bool) (level : Int)
    (context : Option Text) : Text :=
  if level ≤ 0 then (ofTask code report focus insist context).full
  else short code report.language level insist report.findings

/-- Puts the directive in front of the cursor, unless the prompt holds it already. -/
def withDirective (prompt : Text) : Text :=
  if hasPart directive prompt then prompt
  else
    let body := if endsWith cursor prompt then
        trimRightChar '\n' (prompt.take (prompt.length - cursor.length))
      else prompt
    body ++ "\n\n".toList ++ directive ++ ['\n'] ++ cursor

end Prompt
end Refinery
