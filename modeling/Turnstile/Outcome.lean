import Turnstile.Category
import Turnstile.Command.Check
import Turnstile.Time

/-!
# Outcomes of runs

How a run ends: with an exit code and the captured output, or with one of a
closed set of failures.
-/

namespace Turnstile

/-- A run whose process did what it was asked for. -/
structure Completion where
  exitCode : Int
  /-- Lines of standard output, then lines of standard error, joined by line feeds. -/
  messages : String
  deriving DecidableEq, Repr

/-- Why a run has no completion. -/
inductive Failure where
  /-- The command line may not be started. -/
  | refused (refusal : Refusal)
  /-- The process or its output outlived the time limit. -/
  | timeout (program : String) (limit : Time) (messages : String)
  /-- The process exited with a code that means failure. -/
  | exited (program : String) (code : Int) (messages : String)
  /-- A wait was cut short. -/
  | interrupted (activity : String)
  /-- The process could not be started. -/
  | spawn (program : String) (cause : String)
  /-- The process could not be waited for. -/
  | io (cause : String)
  /-- The deadline is later than any instant of a clock: nothing is returned, the run panics. -/
  | overflow
  deriving DecidableEq, Repr

namespace Failure

def message : Failure → String
  | .refused refusal => refusal.message
  | .timeout program limit _ =>
    "Process timeout exceeded after " ++ toString (Time.toSeconds limit) ++ "s: " ++ program
  | .exited _ code messages =>
    "Command process failed with exit code " ++ toString code ++ "\nLogs: " ++ messages
  | .interrupted activity => "Interrupted while " ++ activity
  | .spawn program cause => "Failed to spawn " ++ program ++ ": " ++ cause
  | .io cause => "I/O error: " ++ cause
  | .overflow => "overflow when adding duration to instant"

/-- The captured output, for failures that come with any. -/
def messages? : Failure → Option String
  | .timeout _ _ messages => some messages
  | .exited _ _ messages => some messages
  | _ => none

def isRefusal : Failure → Bool
  | .refused _ => true
  | _ => false

def isTimeout : Failure → Bool
  | .timeout _ _ _ => true
  | _ => false

/-- A wait for a gate that was cut short. -/
def waitingForSlot (category : Category) : Failure :=
  .interrupted ("waiting for a " ++ category.name ++ " slot")

/-- A wait for a pooled server that was cut short. -/
def waitingForEndpoint : Failure :=
  .interrupted "waiting for a server endpoint"

end Failure

/-- How a run ended. -/
abbrev Outcome := Except Failure Completion

end Turnstile
