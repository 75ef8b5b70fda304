import Refinery.Text.Basic

/-!
The phases of a request, as the pipeline shows them from outside.
-/

namespace Refinery

inductive Phase where
  | idle
  | analyzing
  | chunking
  | generating
  | validating
  | retrying
  | done
  | failed
  deriving DecidableEq

namespace Phase

def name : Phase → String
  | idle => "idle"
  | analyzing => "analyzing"
  | chunking => "chunking"
  | generating => "generating"
  | validating => "validating"
  | retrying => "retrying"
  | done => "done"
  | failed => "failed"

def atRest : Phase → Bool
  | idle => true
  | done => true
  | failed => true
  | _ => false

end Phase
end Refinery
