import Turnstile.Host.Process
import Turnstile.Host.Program

/-!
# Machines

A machine with a file tree, processes joined by pipes, and a clock.  Some pipes
and processes are watched from outside: what happens to them is reported.
-/

namespace Turnstile.Host

open Output (Channel)
open Text (Bytes)

/-- A pipe whose bytes are reported instead of being kept. -/
structure Watch where
  pipe : Nat
  /-- The process that the pipe was made for. -/
  owner : Nat
  channel : Channel
  deriving DecidableEq, Repr

structure Machine where
  clock : Time := 0
  /-- The directory of whoever starts processes from outside. -/
  home : Place := []
  tree : FileTree := .system
  processes : List Process := []
  nextId : Nat := 1000
  /-- Unread bytes of each pipe; the first pipe has no writers and stays empty. -/
  pipes : List (Nat × Bytes) := [(0, [])]
  nextPipe : Nat := 1
  watched : List Watch := []
  /-- The processes whose end is reported. -/
  roots : List Nat := []
  /-- What has not been reported yet, by process. -/
  events : List (Nat × ProcessEvent) := []

namespace Machine

/-! ## Processes -/

def process? (machine : Machine) (id : Nat) : Option Process :=
  machine.processes.find? fun process => process.id == id

def setProcess (machine : Machine) (process : Process) : Machine :=
  { machine with
    processes := machine.processes.map fun other =>
      if other.id == process.id then process else other }

/-- The machine without processes that have ended and been waited for. -/
def reap (machine : Machine) (ids : List Nat) : Machine :=
  { machine with
    processes := machine.processes.filter fun process => !ids.contains process.id }

def report (machine : Machine) (id : Nat) (event : ProcessEvent) : Machine :=
  { machine with events := machine.events ++ [(id, event)] }

/-- Ends a process. -/
def finish (machine : Machine) (process : Process) (status : ExitStatus) : Machine :=
  let ended := machine.setProcess { process with ended := some status, frames := [], handles := [] }
  if machine.roots.contains process.id then ended.report process.id (.exited status) else ended

/-- A signal reaches a process. -/
def deliver (machine : Machine) (id number : Nat) : Machine :=
  match machine.process? id with
  | none => machine
  | some process =>
    if !process.isLive then machine
    else
      match if number = 9 then none else process.traps.lookup number with
      | some [] => machine
      | some _ => machine.setProcess { process with caught := process.caught ++ [number] }
      | none =>
        if isHarmless number then machine else machine.finish process (.signalled number)

/-- A new process like another, with work and handles of its own. -/
def fork (machine : Machine) (process : Process) (handles : List (Nat × Handle))
    (frames : List Frame) : Nat × Machine :=
  let id := machine.nextId
  let child : Process := { process with
    id
    handles
    frames
    traps := process.inheritedTraps
    caught := []
    jobs := []
    ended := none }
  (id, { machine with nextId := id + 1, processes := machine.processes ++ [child] })

/-- How a process ended, if it has or is not known. -/
def endOf? (machine : Machine) (id : Nat) : Option ExitStatus :=
  match machine.process? id with
  | none => some (.exited 127)
  | some process => process.ended

/-! ## Pipes and files -/

/-- A new pipe that holds some bytes. -/
def openPipe (machine : Machine) (bytes : Bytes) : Nat × Machine :=
  let pipe := machine.nextPipe
  (pipe, { machine with nextPipe := pipe + 1, pipes := machine.pipes ++ [(pipe, bytes)] })

def pipeBytes (machine : Machine) (pipe : Nat) : Bytes :=
  (machine.pipes.lookup pipe).getD []

def setPipe (machine : Machine) (pipe : Nat) (bytes : Bytes) : Machine :=
  { machine with
    pipes := machine.pipes.map fun item => if item.1 == pipe then (pipe, bytes) else item }

/-- Whether some process can still write to a pipe, now or after it has taken handles up again. -/
def hasWriter (machine : Machine) (pipe : Nat) : Bool :=
  let writes := fun (handles : List (Nat × Handle)) =>
    handles.any fun item => item.2 == .writer pipe
  machine.processes.any fun process =>
    writes process.handles ||
      process.frames.any fun
        | .restore handles => writes handles
        | _ => false

/-- Writes bytes by a handle; false if it is none to write by. -/
def write (machine : Machine) (handle : Option Handle) (bytes : Bytes) : Machine × Bool :=
  match handle with
  | some (.writer pipe) =>
    match machine.watched.find? fun watch => watch.pipe == pipe with
    | some watch =>
      (if bytes.isEmpty then machine else machine.report watch.owner (.wrote watch.channel bytes),
        true)
    | none => (machine.setPipe pipe (machine.pipeBytes pipe ++ bytes), true)
  | some (.file place) => ({ machine with tree := machine.tree.append place bytes }, true)
  | some .nowhere => (machine, true)
  | some (.reader _) => (machine, bytes.isEmpty)
  | none => (machine, bytes.isEmpty)

/-- The pipe that a process reads its input from. -/
def inputOf (process : Process) : Nat :=
  match process.handle? 0 with
  | some (.reader pipe) => pipe
  | _ => 0

/-- Whether reading a pipe gives bytes or the end. -/
def isReadable (machine : Machine) (pipe : Nat) : Bool :=
  !(machine.pipeBytes pipe).isEmpty || !machine.hasWriter pipe

/-- Writes a complaint of a shell about a line of its script. -/
def complain (machine : Machine) (process : Process) (line : Nat) (text : String) : Machine :=
  (machine.write (process.handle? 2)
    (Text.encode (process.env.name ++ ": " ++ toString line ++ ": " ++ text ++ "\n"))).1

/-- What a shell says about a file that it cannot open. -/
def cannotOpen (path : String) (error : OsError) : String :=
  "cannot open " ++ path ++ ": " ++
    (if error = .notFound then "No such file" else describeError error)

/-- What a shell says about a file that it cannot make. -/
def cannotCreate (path : String) (error : OsError) : String :=
  "cannot create " ++ path ++ ": " ++
    (if error = .notFound then "Directory nonexistent" else describeError error)

/-- The handles of a process after a redirection, or what is wrong with it. -/
def redirect (process : Process) (machine : Machine) (handles : List (Nat × Handle)) :
    Shell.Redirect → Except String (List (Nat × Handle) × Machine)
  | .duplicate fd target =>
    let text := Shell.expandText process.env target
    if text = "-" then .ok (Process.setHandle handles fd none, machine)
    else
      match text.toNat?.bind fun number => handles.lookup number with
      | some handle => .ok (Process.setHandle handles fd (some handle), machine)
      | none => .error (text ++ ": Bad file descriptor")
  | .file fd mode target =>
    let path := Shell.expandText process.env target
    match mode with
    | .read =>
      match machine.tree.read process.directory path with
      | .error error => .error (cannotOpen path error)
      | .ok bytes =>
        let (pipe, machine) := machine.openPipe bytes
        .ok (Process.setHandle handles fd (some (.reader pipe)), machine)
    | _ =>
      match machine.tree.openWrite process.directory path (mode == .write) with
      | .error error => .error (cannotCreate path error)
      | .ok (place, tree) =>
        let handle := if tree.entryAt? place = some .device then Handle.nowhere else .file place
        .ok (Process.setHandle handles fd (some handle), { machine with tree })

/-- The handles of a process after redirections, in order. -/
def redirectAll (process : Process) :
    Machine → List (Nat × Handle) → List Shell.Redirect →
      Except String (List (Nat × Handle) × Machine)
  | machine, handles, [] => .ok (handles, machine)
  | machine, handles, first :: rest =>
    match redirect process machine handles first with
    | .error reason => .error reason
    | .ok (handles, machine) => redirectAll process machine handles rest

end Machine

end Turnstile.Host
