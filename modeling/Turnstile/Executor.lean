import Turnstile.Endpoint.Flags
import Turnstile.Endpoint.Resolve
import Turnstile.Gate
import Turnstile.Pool
import Turnstile.Runner

/-!
# The executor

Runs of tools under admission control.  A run waits at the gate of its category
or, if it is a server-aware client, for a pooled server; then its command line
is checked, started and supervised; and when it ends, in whatever way, its
permit or lease is given back.
-/

namespace Turnstile

open Output (SinkLine)

/-- The name of a run, a direct hold or a direct lease.  Every one is new. -/
abbrev Ticket := Nat

/-- How far a run has come. -/
inductive RunStage where
  | waiting
  /-- Holds its permit or lease, and may be started as given here. -/
  | admitted (request : Request)
  /-- Its process was started. -/
  | active
  | ended (outcome : Outcome)
  /-- Given up by the caller. -/
  | cancelled

/-- A request on its way through the executor. -/
structure Run where
  category : Category
  request : Request
  /-- Whether it leases a server in place of passing its gate. -/
  pooled : Bool
  stage : RunStage := .waiting
  /-- The supervision of its process, whose drains may outlive the run. -/
  supervision : Option Supervision := none

structure Executor where
  runner : Runner
  gates : Category → Gate Ticket
  pool : Pool Ticket
  /-- How many tickets have been given out. -/
  issued : Nat := 0
  runs : Claims Ticket Run := []
  /-- What the sink was given by all runs, in order. -/
  sink : Array SinkLine := #[]
  log : Array LogLine := #[]

/-- What an executor is made from: settings, and what takes precedence over them. -/
structure Setup where
  settings : Settings := {}
  allowed : Allowlist := .standard
  /-- Limits that replace those of the settings; of two for one category the last counts. -/
  overrides : List (Category × Limits) := []
  endpoints : Option (List Endpoint) := none

namespace Setup

/-- The limits in force for a category. -/
def limitsFor (setup : Setup) (category : Category) : Limits :=
  ((setup.overrides.reverse).lookup category).getD (setup.settings.limitsFor category)

/-- The servers to pool, with the warnings given while they were resolved. -/
def resolved (setup : Setup) : List Endpoint × List Warning :=
  match setup.endpoints with
  | some endpoints => (endpoints, [])
  | none => Endpoint.resolve setup.settings

def runner (setup : Setup) : Runner where
  allowed := setup.allowed
  live := setup.settings.live
  grace := .ofSeconds setup.settings.graceSeconds

/-- An executor that has not run anything. -/
def build (setup : Setup) : Executor where
  runner := setup.runner
  gates := fun category => .of category (setup.limitsFor category)
  pool := .of setup.resolved.1
  log := (setup.resolved.2.map fun warning => .warn warning.message).toArray

end Setup

namespace Executor

/-! ## Routes -/

/-- The client that can be pointed at a pooled server. -/
def serverClient : List Char := "unoconvert".toList

/-- An executable that names the server-aware client, in any letter case. -/
def isServerClient (executable : String) : Bool :=
  Text.occursIn serverClient (Text.lower (Command.executableName executable)).toList

/-- Whether a command line leases a pooled server in place of passing its gate. -/
def usesPool (executor : Executor) (category : Category) (argv : List String) : Bool :=
  category == .libreOffice && !executor.pool.isEmpty && argv.head?.any isServerClient

/-! ## Admission -/

def setGate (executor : Executor) (category : Category) (gate : Gate Ticket) : Executor :=
  { executor with gates := fun other => if other = category then gate else executor.gates other }

/-- A run that waits, as far as the gate or the pool lets it. -/
def advanced (executor : Executor) (ticket : Ticket) (run : Run) : Run :=
  match run.stage with
  | .waiting =>
    if run.pooled then
      match executor.pool.claims.get? ticket with
      | some (.leased slot _) =>
        let endpoint := executor.pool.endpointAt slot
        { run with
          stage := .admitted { run.request with argv := Endpoint.apply run.request.argv endpoint } }
      | some .interrupted => { run with stage := .ended (.error .waitingForEndpoint) }
      | _ => run
    else
      match (executor.gates run.category).claims.get? ticket with
      | some .held => { run with stage := .admitted run.request }
      | some .interrupted => { run with stage := .ended (.error (.waitingForSlot run.category)) }
      | _ => run
  | _ => run

/-- Lets every run that waits go as far as the gates and the pool let it. -/
def refresh (executor : Executor) : Executor :=
  { executor with
    runs := executor.runs.map fun item => (item.1, executor.advanced item.1 item.2) }

/-- A new run of a category. -/
def begin (executor : Executor) (category : Category) (request : Request) : Ticket × Executor :=
  let ticket := executor.issued
  let pooled := executor.usesPool category request.argv
  let entered := { executor with
    issued := ticket + 1
    runs := executor.runs.enter ticket { category, request, pooled } }
  let asked :=
    if pooled then { entered with pool := entered.pool.acquire ticket }
    else entered.setGate category ((entered.gates category).acquire ticket)
  (ticket, asked.refresh)

/-- A permit of a gate is asked for directly. -/
def hold (executor : Executor) (category : Category) : Ticket × Executor :=
  let ticket := executor.issued
  let entered := { executor with issued := ticket + 1 }
  (ticket, entered.setGate category ((entered.gates category).acquire ticket))

/-- A lease of the pool is asked for directly. -/
def lease (executor : Executor) : Ticket × Executor :=
  let ticket := executor.issued
  (ticket, { executor with issued := ticket + 1, pool := executor.pool.acquire ticket })

/-- Gives up what a ticket holds or waits for at a gate. -/
def leaveGate (executor : Executor) (category : Category) (ticket : Ticket) : Executor :=
  (executor.setGate category ((executor.gates category).leave ticket)).refresh

/-- Gives up what a ticket holds or waits for at the pool. -/
def leavePool (executor : Executor) (ticket : Ticket) : Executor :=
  { executor with pool := executor.pool.leave ticket }.refresh

/-- The caller of a direct lease gives its server back and keeps the closed lease. -/
def closeLease (executor : Executor) (ticket : Ticket) : Executor :=
  { executor with pool := executor.pool.closeLease ticket }.refresh

/-- Gives up what a run holds or waits for. -/
def leave (executor : Executor) (ticket : Ticket) (run : Run) : Executor :=
  if run.pooled then executor.leavePool ticket else executor.leaveGate run.category ticket

/-! ## Runs -/

def run? (executor : Executor) (ticket : Ticket) : Option Run :=
  executor.runs.get? ticket

def setRun (executor : Executor) (ticket : Ticket) (run : Run) : Executor :=
  { executor with runs := executor.runs.set ticket run }

/-- Ends a run and gives back what it holds. -/
def finish (executor : Executor) (ticket : Ticket) (run : Run) (outcome : Outcome) : Executor :=
  (executor.setRun ticket { run with stage := .ended outcome }).leave ticket run

/-- Keeps the supervision of a run, and ends the run if the supervision is over. -/
def keep (executor : Executor) (ticket : Ticket) (run : Run) (supervision : Supervision) :
    Executor :=
  let kept := { run with supervision := some supervision }
  match run.stage, supervision.outcome? with
  | .active, some outcome => executor.finish ticket kept outcome
  | _, _ => executor.setRun ticket kept

/-- The requests that may be started, by the tickets of their runs. -/
def startable (executor : Executor) : List (Ticket × Request) :=
  executor.runs.filterMap fun item =>
    match item.2.stage with
    | .admitted request => some (item.1, request)
    | _ => none

/-- The limit on the time of a run. -/
def limitOf (executor : Executor) (run : Run) : Time :=
  (executor.gates run.category).limits.timeout

/--
Starts an admitted run: `probe` tells what paths point at, and `spawned` is the
answer of the system to a command line that is not refused.
-/
def launch (executor : Executor) (ticket : Ticket) (now : Time) (probe : String → PathKind)
    (spawned : Except String Answers) : Executor :=
  match executor.run? ticket with
  | some run =>
    match run.stage with
    | .admitted request =>
      let verdict := executor.runner.check probe request.argv
      let logged := { executor with log := executor.log ++ Runner.attemptLog verdict }
      match executor.runner.start now (executor.limitOf run) request.argv verdict spawned with
      | .error failure => logged.finish ticket run (.error failure)
      | .ok supervision => logged.keep ticket { run with stage := .active } supervision
    | _ => executor
  | none => executor

/-- The run's supervision goes on by `change`; what its drains give away reaches the sink and log. -/
def supervise (executor : Executor) (ticket : Ticket) (change : Supervision → Supervision) :
    Executor :=
  match executor.run? ticket with
  | some run =>
    match run.supervision with
    | some before =>
      let later := change before
      { executor with
        sink := executor.sink ++ later.sink.extract before.sink.size later.sink.size
        log := executor.log ++ later.log.extract before.log.size later.log.size }.keep ticket run later
    | none => executor
  | none => executor

/-- Something happens to the process of a run. -/
def observe (executor : Executor) (ticket : Ticket) (now : Time) (event : ProcessEvent) :
    Executor :=
  executor.supervise ticket (·.observe now event)

/-- Time passes for every run. -/
def elapse (executor : Executor) (now : Time) : Executor :=
  (executor.runs.map Prod.fst).foldl
    (fun executor ticket => executor.supervise ticket (·.elapse now)) executor

/-- The caller of a run gives up. -/
def abandon (executor : Executor) (ticket : Ticket) : Executor :=
  match executor.run? ticket with
  | some run =>
    match run.stage with
    | .ended _ => executor
    | .cancelled => executor
    | _ =>
      let given := { run with
        stage := .cancelled
        supervision := run.supervision.map Supervision.abandon }
      (executor.setRun ticket given).leave ticket given
  | none => executor

/-- Stops admitting work.  Whoever waits is sent away; what runs goes on. -/
def shutdown (executor : Executor) : Executor :=
  { executor with
    gates := fun category => (executor.gates category).close
    pool := executor.pool.close
    log := executor.log.push (.info "Shutting down tool executor") }.refresh

/-- The next instant at which something happens by itself. -/
def due? (executor : Executor) : Option Time :=
  (executor.runs.filterMap fun item => item.2.supervision.bind Supervision.due?).min?

/-- How a run ended, once it has. -/
def outcome? (executor : Executor) (ticket : Ticket) : Option Outcome :=
  match executor.run? ticket with
  | some { stage := .ended outcome, .. } => some outcome
  | _ => none

end Executor

end Turnstile
