import Turnstile.Executor
import Turnstile.Host.Run

/-!
# Sessions

An executor on a machine: requests that are admitted are started there, what
happens to their processes is told to the executor, and the signals that the
executor sends reach them.
-/

namespace Turnstile

open Host (Machine)

/-- The process of a run. -/
structure Attachment where
  ticket : Ticket
  processId : Nat
  /-- How many signals have reached it. -/
  signalled : Nat := 0
  deriving DecidableEq, Repr

structure Session where
  executor : Executor
  machine : Machine
  attached : List Attachment := []

namespace Session

/-- What paths point at, seen from the directory of whoever starts runs. -/
def probe (session : Session) (path : String) : PathKind :=
  session.machine.tree.probe session.machine.home path

/-- Whether a command line may be started. -/
def check (session : Session) (argv : List String) : Except Refusal Unit :=
  session.executor.runner.check session.probe argv

/-- Whether a run that starts now has a deadline that a clock can tell. -/
def hasDeadline (session : Session) (ticket : Ticket) : Bool :=
  (session.executor.run? ticket).any fun run =>
    decide (session.machine.clock + session.executor.limitOf run).IsInstant

/-- Starts a request that was admitted.  The machine accepts all signals. -/
def launch (session : Session) (ticket : Ticket) (request : Request) : Session :=
  let told := fun (spawned : Except String Answers) =>
    session.executor.launch ticket session.machine.clock session.probe spawned
  match session.check request.argv with
  | .error _ => { session with executor := told (.ok {}) }
  | .ok () =>
    if session.hasDeadline ticket then
      match session.machine.spawn request.workingDir request.argv true with
      | .error error => { session with executor := told (.error error.message) }
      | .ok (processId, machine) =>
        { executor := told (.ok {})
          machine
          attached := session.attached ++ [{ ticket, processId }] }
    else { session with executor := told (.ok {}) }

/-- Starts requests that were admitted, `count` of them at most. -/
def launchAll : Nat → Session → Session
  | 0, session => session
  | count + 1, session =>
    match session.executor.startable with
    | [] => session
    | (ticket, request) :: _ => launchAll count (session.launch ticket request)

/-- The signals sent to the process of a run. -/
def signalsOf (session : Session) (ticket : Ticket) : List Signal :=
  (((session.executor.run? ticket).bind Run.supervision).map Supervision.signals).getD []

/-- Signals that the executor has sent reach their process. -/
def relay (session : Session) (attachment : Attachment) : Machine × Attachment :=
  let signals := session.signalsOf attachment.ticket
  ((signals.drop attachment.signalled).foldl
      (fun machine signal => machine.signal attachment.processId signal) session.machine,
    { attachment with signalled := signals.length })

/-- Signals that the executor has sent reach their processes. -/
def relayAll (session : Session) : Session :=
  session.attached.foldl (fun (done : Session) attachment =>
    let (machine, later) := done.relay attachment
    { done with machine, attached := done.attached ++ [later] }) { session with attached := [] }

/-- Does what the executor has come to ask for. -/
def serve (session : Session) : Session :=
  (session.launchAll session.executor.runs.length).relayAll

/-- The executor is told what happened to a process. -/
def tell (session : Session) (report : Nat × ProcessEvent) : Session :=
  match session.attached.find? fun attachment => attachment.processId == report.1 with
  | some attachment =>
    { session with
      executor := session.executor.observe attachment.ticket session.machine.clock report.2 }
  | none => session

/-- Time passes until something happens, or until an instant. -/
def advance (session : Session) (limit : Time) : Session :=
  let due := session.executor.due?.getD limit
  let (reports, machine) := (session.machine.advance (min limit due)).takeEvents
  let told := reports.foldl tell { session with machine }
  { told with executor := told.executor.elapse machine.clock }.serve

/-- Time passes until something holds, through at most `rounds` rounds. -/
def runUntil (holds : Session → Bool) (limit : Time) : Nat → Session → Session
  | 0, session => session
  | rounds + 1, session =>
    if holds session || limit ≤ session.machine.clock then session
    else runUntil holds limit rounds (session.advance limit)

/-- The longest time that a run is waited for. -/
def patience : Time := .ofSeconds 1000000

/-- How many times something may happen while a run is waited for. -/
def maxRounds : Nat := 10000000

/-! ## What callers do -/

/-- A new run, which is started at once if it is admitted. -/
def begin (session : Session) (category : Category) (request : Request) : Ticket × Session :=
  let (ticket, executor) := session.executor.begin category request
  (ticket, { session with executor }.serve)

/-- Whether a run is over. -/
def isOver (session : Session) (ticket : Ticket) : Bool :=
  match (session.executor.run? ticket).map Run.stage with
  | some (.ended _) => true
  | some .cancelled => true
  | none => true
  | _ => false

/-- Waits for the end of a run. -/
def await (session : Session) (ticket : Ticket) : Session :=
  session.runUntil (fun session => session.isOver ticket) (session.machine.clock + patience)
    maxRounds

/-- How a run ended; none if it has not, or was given up. -/
def outcome? (session : Session) (ticket : Ticket) : Option Outcome :=
  session.executor.outcome? ticket

/-- Runs a request to its end. -/
def run (session : Session) (category : Category) (request : Request) :
    Option Outcome × Session :=
  let (ticket, session) := session.begin category request
  let session := session.await ticket
  (session.outcome? ticket, session)

/-- The executor does something of its own accord. -/
def act (session : Session) (change : Executor → Executor) : Session :=
  { session with executor := change session.executor }.serve

end Session

end Turnstile
