import Refinery.Number.Real

/-!
Why a generation or a whole request fails.
-/

namespace Refinery

/-- The kinds of failure that come from outside of the pipeline. -/
inductive FailureKind where
  | runtime
  | value
  | type
  | attribute
  | key
  | zeroDivision
  | read
  deriving DecidableEq

inductive TransportFault where
  | connect
  | read
  deriving DecidableEq

def TransportFault.name : TransportFault → String
  | connect => "ConnectError"
  | read => "ReadError"

inductive Failure where
  /-- The engine failed, or the way to it as the transport reported. -/
  | inference (message : Text) (cause : Option TransportFault)
  | pipeline (message : Text)
  /-- Nothing but blanks at every level. -/
  | emptyOutput (message : Text)
  | cancelled (message : Text)
  | timedOut (limit : Real64)
  | other (kind : FailureKind) (message : Text)
  deriving DecidableEq

namespace Failure

/-- The name under which a kind of failure is reported. -/
def kindName : FailureKind → String
  | .runtime => "RuntimeError"
  | .value => "ValueError"
  | .type => "TypeError"
  | .attribute => "AttributeError"
  | .key => "KeyError"
  | .zeroDivision => "ZeroDivisionError"
  | .read => "ReadError"

def name : Failure → String
  | inference .. => "InferenceError"
  | pipeline _ => "PipelineError"
  | emptyOutput _ => "EmptyOutputError"
  | cancelled _ => "OptimizationCancelled"
  | timedOut _ => "InferenceTimeoutError"
  | other kind _ => kindName kind

def cancelledText : Text := "Optimization cancelled.".toList

def emptyText : Text := "Model returned empty output after retries".toList

def message : Failure → Text
  | inference m _ => m
  | pipeline m => m
  | emptyOutput m => m
  | cancelled m => m
  | timedOut limit => "Inference timed out after ".toList ++ limit.general ++ ['s']
  | other _ m => m

def timeoutReport (limit : Real64) : Text :=
  "Optimization timed out after ".toList ++ limit.general ++ "s. Try smaller input.".toList

/-- How a request reports any other failure: its message, or its name where there is none. -/
def report (f : Failure) : Text :=
  "Optimization failed: ".toList ++ if f.message.isEmpty then f.name.toList else f.message

end Failure
end Refinery
