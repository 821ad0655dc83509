import Turnstile.Child.Supervision
import Turnstile.Request

/-!
# Runners

A runner checks a command line, has it started, and sets up its supervision.
-/

namespace Turnstile

/-- What a runner allows, and how it supervises what it starts. -/
structure Runner where
  allowed : Allowlist := .standard
  live : Bool := false
  /-- The time between the first and the second attempt to end a process. -/
  grace : Time := .ofSeconds 5
  /-- The longest line kept, in bytes. -/
  cap : Nat := 5000000

namespace Runner

/-- Whether a command line may be started. -/
def check (runner : Runner) (probe : String → PathKind) (argv : List String) :
    Except Refusal Unit :=
  Command.check runner.allowed probe argv

/-- What is logged before a process is started; a refused command line is not started. -/
def attemptLog : Except Refusal Unit → List LogLine
  | .ok () => [.info "Running command"]
  | .error _ => []

/-- The supervision of a process at its start. -/
def supervise (runner : Runner) (program : String) (now limit : Time) (answers : Answers := {}) :
    Supervision where
  program := program
  limit := limit
  deadline := now + limit
  grace := runner.grace
  answers := answers
  live := runner.live
  out := .start runner.cap
  err := .start runner.cap

/--
Starts a command line: `verdict` is the answer of the check and `spawned` the
answer of the system to a command line that was not refused, with what becomes of
the signals to its process.  The deadline is found before anything is spawned.
-/
def start (runner : Runner) (now limit : Time) (argv : List String)
    (verdict : Except Refusal Unit) (spawned : Except String Answers) :
    Except Failure Supervision :=
  match verdict with
  | .error refusal => .error (.refused refusal)
  | .ok () =>
    let program := argv.headD ""
    if (now + limit).IsInstant then
      match spawned with
      | .error cause => .error (.spawn program cause)
      | .ok answers => .ok (runner.supervise program now limit answers)
    else .error .overflow

/-- A run that was started has a deadline, and is the supervision of its program. -/
theorem exists_supervise_of_start {runner : Runner} {now limit : Time} {argv : List String}
    {verdict : Except Refusal Unit} {spawned : Except String Answers} {start : Supervision}
    (started : runner.start now limit argv verdict spawned = .ok start) :
    (now + limit).IsInstant ∧ ∃ answers, spawned = .ok answers ∧
      start = runner.supervise (argv.headD "") now limit answers := by
  unfold Runner.start at started
  split at started
  · cases started
  · split at started
    · rename_i told
      split at started
      · cases started
      · exact ⟨told, _, rfl, (Except.ok.inj started).symm⟩
    · cases started

end Runner

end Turnstile
