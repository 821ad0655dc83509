import Turnstile.Host.Step

/-!
# Running a machine

Processes take steps in turn while the clock goes on, and something from outside
starts processes, signals them and hears what becomes of them.
-/

namespace Turnstile.Host.Machine

open Output (Channel)

/-- The time that one turn of all processes takes. -/
def tick : Time := 20

/-- The time between the start of a process and its first step. -/
def startLatency : Time := 2000

/-- The next instant at which a process wakes up by itself. -/
def wake? (machine : Machine) : Option Time :=
  (machine.processes.filterMap fun process =>
    match process.frames with
    | .sleep wake :: _ => some wake
    | _ => none).min?

/-- One process takes a step if it can. -/
def turn (machine : Machine) (id : Nat) : Machine :=
  match machine.process? id with
  | some process => if machine.isReady process then machine.step process else machine
  | none => machine

/-- Reports the end of watched pipes that nobody can write to any more. -/
def reportEnds (machine : Machine) : Machine :=
  let (open_, ended) := machine.watched.partition fun watch => machine.hasWriter watch.pipe
  { machine with
    watched := open_
    events := machine.events ++ ended.map fun watch => (watch.owner, .closed watch.channel) }

/-- Every process takes a step if it can. -/
def round (machine : Machine) : Machine :=
  ((machine.processes.map Process.id).foldl turn machine).reportEnds

/-- Whether some process can take a step. -/
def isBusy (machine : Machine) : Bool :=
  machine.processes.any machine.isReady

/-- What there is to report, and the machine without it. -/
def takeEvents (machine : Machine) : List (Nat × ProcessEvent) × Machine :=
  (machine.events, { machine with events := [] })

/-- The clock after something that takes until `next`: later than now, and no later than `limit`. -/
def clockAfter (now next limit : Nat) : Nat :=
  min limit (max next (now + 1))

theorem clockAfter_closer {now limit : Nat} (early : ¬limit ≤ now) (next : Nat) :
    limit - clockAfter now next limit < limit - now := by
  unfold clockAfter
  omega

/-- Runs until there is something to report, or until an instant. -/
def advance (machine : Machine) (limit : Time) : Machine :=
  if !machine.events.isEmpty then machine
  else if _early : limit ≤ machine.clock then machine
  else if machine.isBusy then
    let clock := clockAfter machine.clock (machine.clock + tick) limit
    advance { machine.round with clock } limit
  else
    let clock := clockAfter machine.clock (machine.wake?.getD limit) limit
    advance { machine with clock } limit
termination_by limit - machine.clock
decreasing_by
  · exact clockAfter_closer _early _
  · exact clockAfter_closer _early _

/-- Takes steps without letting time pass, until nothing more can happen or `turns` are over. -/
def settle : Nat → Machine → Machine
  | 0, machine => machine
  | turns + 1, machine => if machine.isBusy then settle turns machine.round else machine

/--
Starts a command in the directory `workingDir`, or in that of whoever starts it.
Its output is reported; errors are reported too, or swallowed.
-/
def spawn (machine : Machine) (workingDir : Option String) (argv : List String)
    (errors : Bool) : Except OsError (Nat × Machine) :=
  match Image.start machine.tree machine.home workingDir (argv.headD "") with
  | .error error => .error error
  | .ok (directory, _) =>
    let (out, machine) := machine.openPipe []
    let (err, machine) := machine.openPipe []
    let id := machine.nextId
    let process : Process :=
      { id
        handles := [(0, .reader 0), (1, .writer out), (2, if errors then .writer err else .nowhere)]
        directory
        env := {}
        frames := [.sleep (machine.clock + startLatency), .start 0 argv] }
    .ok (id, { machine with
      nextId := id + 1
      processes := machine.processes ++ [process]
      roots := machine.roots ++ [id]
      watched := machine.watched ++ ⟨out, id, .out⟩ :: if errors then [⟨err, id, .err⟩] else [] })

/-- A signal is sent to a process that was started from outside. -/
def signal (machine : Machine) (id : Nat) (signal : Signal) : Machine :=
  (machine.deliver id signal.number).reportEnds

end Turnstile.Host.Machine
