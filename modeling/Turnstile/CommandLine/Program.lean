import Turnstile.CommandLine.Arguments
import Turnstile.CommandLine.Listing
import Turnstile.CommandLine.Report
import Turnstile.Session

/-!
# The program

What the program answers to its arguments on a given machine.
-/

namespace Turnstile.CommandLine

open Host (Machine)

/-- What a finished program leaves behind. -/
structure Answer where
  exitCode : Nat := 0
  out : String := ""
  err : String := ""
  deriving DecidableEq, Repr

namespace Answer

def ofReport (report : Report) : Answer where
  exitCode := report.exitCode
  err := "Error: " ++ report.display ++ "\n"

/-- The answer to a run; a nonzero exit code that is no failure is a warning. -/
def ofCompletion (category : Category) (completion : Completion) : Answer where
  out := if completion.messages.isEmpty then "" else completion.messages ++ "\n"
  err :=
    if completion.exitCode = 0 then ""
    else category.name ++ " completed with warnings (exit code " ++
      toString completion.exitCode ++ ")\n"

/-- The answer to a run; one without an outcome never left its gate. -/
def ofOutcome (category : Category) : Option Outcome → Answer
  | some (.ok completion) => ofCompletion category completion
  | some (.error failure) => ofReport (.ofFailure failure)
  | none => ofReport (.ofFailure (.waitingForSlot category))

end Answer

/-- The settings to work with: those of a file, or those that say nothing. -/
def settingsAt (machine : Machine) : Option String → Except SettingsError Settings
  | none => .ok {}
  | some path => Settings.load path (machine.tree.read machine.home path)

/-- Performs a task under given settings. -/
def Task.perform (machine : Machine) (settings : Settings) (task : Task) : Answer :=
  let executor := Setup.build { settings }
  let session : Session := { executor, machine }
  match task with
  | .run category workingDir argv =>
    .ofOutcome category (session.run category { argv, workingDir }).1
  | .check argv =>
    match session.check argv with
    | .error refusal => .ofReport (.ofRefusal refusal)
    | .ok () => { out := "OK: " ++ " ".intercalate argv ++ "\n" }
  | .limits asJson => { out := if asJson then limitsDocument executor else limitsTable executor }
  | .endpoints asJson =>
    let endpoints := executor.pool.endpoints
    { out := if asJson then endpointsDocument endpoints else endpointsTable endpoints }

/-- Loads the settings, then performs the task. -/
def perform (machine : Machine) (task : Task) (settingsPath : Option String) : Answer :=
  match settingsAt machine settingsPath with
  | .error error => .ofReport (.ofSettings error)
  | .ok settings => task.perform machine settings

/-- How the program is called. -/
def usage : String :=
  "Run external document tools with per-tool concurrency limits and timeouts\n\n" ++
  "Usage: toolgate [OPTIONS] [COMMAND]\n\n" ++
  "Commands:\n" ++
  "  run CATEGORY [--cwd DIR] -- ARGV...  Run a tool under its category's gate and timeout\n" ++
  "  check -- ARGV...                     Validate a command line without running it\n" ++
  "  limits [--json]                      Show concurrency limits and timeouts per category\n" ++
  "  endpoints [--json]                   Show the servers leased to office conversions\n" ++
  "  help [COMMAND]                       Show this text\n\n" ++
  "Options:\n" ++
  "      --config FILE  Settings file (JSON)\n" ++
  "  -v, --verbose      More log output\n" ++
  "  -h, --help         Show this text\n" ++
  "  -V, --version      Show the version\n"

def versionLine : String := "toolgate 0.1.0\n"

/-- The variable of the environment that names the settings file. -/
def settingsVariable : String := "TOOLGATE_CONFIG"

/-- The answer to an invocation. -/
def Invocation.answer (machine : Machine) : Invocation → Answer
  | .help => { out := usage }
  | .version => { out := versionLine }
  | .misuse => { exitCode := 2, err := usage }
  | .perform task settingsPath => CommandLine.perform machine task settingsPath

end Turnstile.CommandLine
