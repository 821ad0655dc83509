import Turnstile.Host.Run

/-!
# Children of a machine

A process started from outside, what it has written, and how it is ended.
-/

namespace Turnstile.Host

open Text (Bytes)

/-- A process started from outside, on its machine. -/
structure Child where
  machine : Machine
  id : Nat
  output : Bytes := []
  isClosed : Bool := false
  status : Option ExitStatus := none

namespace Child

/-- The longest time that a child is waited for. -/
def patience : Time := .ofSeconds 3600

/-- Takes note of what is reported of the child. -/
def note (child : Child) : Nat × ProcessEvent → Child
  | (_, .wrote .out bytes) => { child with output := child.output ++ bytes }
  | (_, .closed .out) => { child with isClosed := true }
  | (_, .exited status) => { child with status := some status }
  | _ => child

/-- Lets the machine run until it reports something, or until an instant. -/
def advance (child : Child) (limit : Time) : Child :=
  let (events, machine) := (child.machine.advance limit).takeEvents
  events.foldl note { child with machine }

/-- Lets the machine run until something holds of the child, through at most `reports` reports. -/
def runUntil (holds : Child → Bool) (limit : Time) : Nat → Child → Child
  | 0, child => child
  | reports + 1, child =>
    if holds child || limit ≤ child.machine.clock then child
    else runUntil holds limit reports (child.advance limit)

/-- How many reports are listened to at most. -/
def maxReports : Nat := 1000000

/-- Lets the machine run until something holds of the child. -/
def await (holds : Child → Bool) (child : Child) : Child :=
  child.runUntil holds (child.machine.clock + patience) maxReports

/-- The child once its first line, or the end of its output, has been read. -/
def awaitLine (child : Child) : Child :=
  child.await fun child => child.output.contains Output.lineFeed || child.isClosed

/-- The first line of the output, if there is any output. -/
def firstLine? (child : Child) : Option String :=
  if child.output.isEmpty then none
  else some (Text.decodeLossy (Output.dropReturn (Output.content child.output)))

/-- The child once it has exited. -/
def awaitExit (child : Child) : Child :=
  child.await fun child => child.status.isSome

/-- Sends what an ending has come to send. -/
def signalAll (child : Child) (signals : List Signal) : Child :=
  { child with
    machine := signals.foldl (fun machine signal => machine.signal child.id signal) child.machine }

/-- The ending after the child exited, if it has. -/
def noteExit (child : Child) (shutdown : Shutdown) : Shutdown :=
  match child.status with
  | some status => shutdown.exit status
  | none => shutdown

/--
Goes on with an ending until it is over, through at most `rounds` rounds.  The machine accepts
all signals.
-/
def follow : Nat → Child → Shutdown → Child × Shutdown
  | 0, child, shutdown => (child, shutdown)
  | rounds + 1, child, shutdown =>
    let heard := child.noteExit shutdown
    if heard.isOver then (child, heard)
    else
      let limit := heard.due?.getD (child.machine.clock + patience)
      let child := child.runUntil (fun child => child.status.isSome) limit maxReports
      let heard := child.noteExit heard
      let later := if heard.isOver then heard else heard.expire (child.machine.clock + 1) .accepted
      follow rounds (child.signalAll (later.tried.drop heard.tried.length)) later

/-- Ends the child, which has been reaped if `reaped` holds. -/
def shutDown (child : Child) (reaped : Bool) (grace : Time) : Child × Shutdown :=
  let known := if reaped then child.status else none
  let shutdown := Shutdown.begin child.machine.clock grace known .accepted
  follow 4 (child.signalAll shutdown.tried) shutdown

end Child

end Turnstile.Host
