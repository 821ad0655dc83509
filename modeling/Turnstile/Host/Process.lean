import Turnstile.Child.Supervision
import Turnstile.Host.Image
import Turnstile.Shell.Expand
import Turnstile.Shell.Parse

/-!
# Processes

A process runs a shell script or a small program.  What is left for it to do is
a stack of frames, of which it takes the topmost at each step.
-/

namespace Turnstile.Host

open Text (Bytes)
open Shell (Command Env)

/-- What a file descriptor leads to. -/
inductive Handle where
  | reader (pipe : Nat)
  | writer (pipe : Nat)
  /-- A file to which bytes are added. -/
  | file (place : Place)
  /-- Swallows what is written. -/
  | nowhere
  deriving DecidableEq, Repr

/-- A piece of what a process has to do. -/
inductive Frame where
  | run (command : Command)
  /-- Goes on with a command if the one before it succeeded. -/
  | ifOk (command : Command)
  | ifFailed (command : Command)
  | invert
  | branch (yes no : Command)
  /-- The condition of a loop has been run. -/
  | loopTest (negated : Bool) (condition body : Command)
  /-- The body of a loop has been run. -/
  | loopNext (negated : Bool) (condition body : Command)
  | each (name : String) (values : List String) (body : Command)
  | restore (handles : List (Nat × Handle))
  | restoreArguments (arguments : List String)
  /-- Waits for children; the last one's status counts. -/
  | await (children : List Nat)
  /-- Waits for children in the background. -/
  | awaitJobs (children : List Nat)
  /-- Collects the output of a child that stands inside the words of a command. -/
  | fill (pipe child : Nat) (output : Bytes) (command : Command)
  | sleep (wake : Time)
  /-- Reads a line into variables. -/
  | read (names : List String)
  /-- Becomes a program. -/
  | start (line : Nat) (argv : List String)
  /-- Runs a program of the system once it has read its input. -/
  | program (name : String) (arguments : List String) (input : Bytes)
  /-- Takes up the status from before a trap. -/
  | setStatus (status : Nat)
  deriving Inhabited

structure Process where
  id : Nat
  handles : List (Nat × Handle)
  directory : Place
  env : Env
  frames : List Frame
  /-- Actions for signals by number; an empty one ignores the signal, and number 0 is the end. -/
  traps : List (Nat × List Char) := []
  /-- Signals that were caught and not acted on. -/
  caught : List Nat := []
  /-- Children in the background. -/
  jobs : List Nat := []
  ended : Option ExitStatus := none

namespace Process

def handle? (process : Process) (fd : Nat) : Option Handle :=
  process.handles.lookup fd

/-- Handles with the one of a descriptor set or closed. -/
def setHandle (handles : List (Nat × Handle)) (fd : Nat) (handle : Option Handle) :
    List (Nat × Handle) :=
  let others := handles.filter fun item => item.1 != fd
  match handle with
  | none => others
  | some handle => (fd, handle) :: others

def status (process : Process) (status : Nat) : Process :=
  { process with env := { process.env with status } }

def push (process : Process) (frames : List Frame) : Process :=
  { process with frames := frames ++ process.frames }

def isLive (process : Process) : Bool :=
  process.ended.isNone

/-- Gives frames up one by one until one is reached at which to stop, undoing what they undo. -/
def unwind (stop : Frame → Bool) (process : Process) : List Frame → Process
  | [] => { process with frames := [] }
  | frame :: rest =>
    if stop frame then { process with frames := frame :: rest }
    else
      match frame with
      | .restore handles => unwind stop { process with handles } rest
      | .restoreArguments arguments =>
        unwind stop { process with env := { process.env with arguments } } rest
      | _ => unwind stop process rest

/-- Ends the process as soon as the action for its end has been run. -/
def leave (status : Nat) (process : Process) : Process :=
  let left := process.status status
  match process.traps.lookup 0 with
  | some (c :: action) =>
    { left with
      traps := process.traps.filter fun item => item.1 != 0
      frames := [.run (Shell.parse (c :: action)), .setStatus status] }
  | _ => { left with frames := [] }

/-- The traps that a child has: signals that are ignored stay ignored. -/
def inheritedTraps (process : Process) : List (Nat × List Char) :=
  process.traps.filter fun item => item.2.isEmpty && item.1 != 0

end Process

/-! ## Signals -/

/-- Names of signals by number. -/
def signalNames : List (String × Nat) :=
  [("EXIT", 0), ("HUP", 1), ("INT", 2), ("QUIT", 3), ("ILL", 4), ("TRAP", 5), ("ABRT", 6),
    ("BUS", 7), ("FPE", 8), ("KILL", 9), ("USR1", 10), ("SEGV", 11), ("USR2", 12), ("PIPE", 13),
    ("ALRM", 14), ("TERM", 15), ("CHLD", 17), ("CONT", 18), ("STOP", 19)]

/-- The number of a signal that is written as a number or by its name. -/
def signal? (text : String) : Option Nat :=
  match text.toNat? with
  | some number => some number
  | none => signalNames.lookup (String.ofList (text.toList.map Char.toUpper))

/-- Signals that do nothing to a process that does not catch them. -/
def isHarmless (number : Nat) : Bool :=
  number == 0 || number == 17 || number == 18

end Turnstile.Host
