import Turnstile.Outcome
import Turnstile.Settings.Load

/-!
# Reports of the command line

How failures are shown to whoever started the program, and the exit code that
goes with each kind.
-/

namespace Turnstile.CommandLine

/-- The kinds of failure that the exit code tells apart. -/
inductive ReportKind where
  | arguments
  | tool
  | timeout
  | interrupted
  | process
  | config
  /-- The program breaks off. -/
  | panic
  deriving DecidableEq, Repr

/-- A failure as reported on the command line. -/
structure Report where
  kind : ReportKind
  detail : String
  deriving DecidableEq, Repr

namespace Report

/-- The exit code of a kind of failure; those from 64 on follow the system's conventions. -/
def exitCode (report : Report) : Nat :=
  match report.kind with
  | .tool => 1
  | .arguments => 2
  | .process => 71
  | .timeout => 75
  | .interrupted => 75
  | .config => 78
  | .panic => 101

def display (report : Report) : String :=
  match report.kind with
  | .arguments => "Invalid command: " ++ report.detail
  | .process => "Process error: " ++ report.detail
  | .config => "Configuration error: " ++ report.detail
  | _ => report.detail

def ofRefusal (refusal : Refusal) : Report :=
  ⟨.arguments, refusal.message⟩

def ofFailure : Failure → Report
  | .refused refusal => ofRefusal refusal
  | failure@(.exited _ _ _) => ⟨.tool, failure.message⟩
  | failure@(.timeout _ _ _) => ⟨.timeout, failure.message⟩
  | failure@(.interrupted _) => ⟨.interrupted, failure.message⟩
  | failure@(.spawn _ _) => ⟨.process, failure.message⟩
  | failure@(.io _) => ⟨.process, failure.message⟩
  | failure@.overflow => ⟨.panic, failure.message⟩

def ofSettings (error : SettingsError) : Report :=
  ⟨.config, error.message⟩

end Report

end Turnstile.CommandLine
