import Refinery.Text.Basic

/-!
What a revision is to improve.
-/

namespace Refinery

inductive Focus where
  | performance
  | readability
  | security
  | bestPractices
  | all
  deriving DecidableEq

namespace Focus

def name : Focus → String
  | performance => "performance"
  | readability => "readability"
  | security => "security"
  | bestPractices => "best-practices"
  | all => "all"

def every : List Focus := [performance, readability, security, bestPractices, all]

def ofName? (n : Text) : Option Focus := every.find? fun f => f.name.toList == n

def hint : Focus → String
  | performance => "improve speed and reduce complexity"
  | readability => "improve clarity and naming"
  | security => "fix security issues"
  | bestPractices => "apply cleaner patterns"
  | all => "improve overall quality"

end Focus
end Refinery
