import Turnstile.Child.Shutdown
import Turnstile.Command.Name
import Turnstile.Outcome
import Turnstile.Output.Drain
import Turnstile.Output.Sink

/-!
# Supervision of a process

A started process is waited for until its deadline while two drains empty its
pipes.  Exit and the end of both pipes are subject to the same deadline.  What
the process does is told by events, and a drain takes its steps one event at a
time, so that every interleaving is a list of events.
-/

namespace Turnstile

open Output (Channel Drain Line SinkLine)

/-- How far a supervision has come. -/
inductive Phase where
  /-- The process has not been seen to exit. -/
  | running
  /-- The deadline has passed and the process is being ended. -/
  | stopping (shutdown : Shutdown)
  /-- The process exited in time and its pipes are still open. -/
  | draining (status : ExitStatus)
  | over (outcome : Outcome)
  /-- Given up by the caller. -/
  | abandoned

/-- What happens to a supervised process and to the drains of its pipes. -/
inductive ProcessEvent where
  | wrote (channel : Channel) (bytes : Text.Bytes)
  /-- The end of a pipe is reached. -/
  | closed (channel : Channel)
  /-- A drain takes one step. -/
  | drained (channel : Channel)
  /-- Reading a pipe fails, or the sink does. -/
  | lost (channel : Channel)
  | exited (status : ExitStatus)
  | waitFailed (cause : String)
  deriving DecidableEq, Repr

structure Supervision where
  program : String
  limit : Time
  deadline : Time
  /-- The time between the first and the second attempt to end the process. -/
  grace : Time
  /-- What becomes of the signals that the process is sent. -/
  answers : Answers := {}
  live : Bool
  out : Drain
  err : Drain
  phase : Phase := .running
  /-- What the sink was given, in order. -/
  sink : Array SinkLine := #[]
  log : Array LogLine := #[]
  /-- The signals tried on the process, in order. -/
  signals : List Signal := []

namespace Supervision

def drain (channel : Channel) (supervision : Supervision) : Drain :=
  match channel with
  | .out => supervision.out
  | .err => supervision.err

def setDrain (channel : Channel) (drain : Drain) (supervision : Supervision) : Supervision :=
  match channel with
  | .out => { supervision with out := drain }
  | .err => { supervision with err := drain }

/-- The lines stored so far, standard output first. -/
def lines (supervision : Supervision) : List String :=
  supervision.out.stored.toList ++ supervision.err.stored.toList

def messages (supervision : Supervision) : String :=
  "\n".intercalate supervision.lines

/-! ## The end of a run -/

/-- The tool whose exit code 3 means success with warnings. -/
def repairTool : String := "qpdf"

def repairWarningCode : Int := 3

/-- A code that means success with warnings. -/
def isWarningExit (program : String) (code : Int) : Bool :=
  code == repairWarningCode && Command.executableName program == repairTool

/-- The outcome of a process that ended in time, by its exit code. -/
def classify (program : String) (code : Int) (messages : String) : Outcome :=
  if code = 0 ∨ isWarningExit program code then .ok ⟨code, messages⟩
  else .error (.exited program code messages)

/-- What is logged about captured lines under a heading. -/
def summary (write : String → LogLine) (heading : String) (lines : List String) : List LogLine :=
  if lines.isEmpty then [] else [write (heading ++ ":\n" ++ "\n".intercalate lines)]

/-- What is logged when a process has ended in time. -/
def closingLog (supervision : Supervision) (code : Int) : List LogLine :=
  (if supervision.live then []
    else summary .info "Command output" supervision.out.stored.toList ++
      summary .warn "Command error output" supervision.err.stored.toList) ++
    (if isWarningExit supervision.program code then
      [.warn "qpdf completed with warnings (exit code 3)"] else [])

/-- Ends a supervision whose process exited in time, once both pipes have ended. -/
def conclude (supervision : Supervision) : Supervision :=
  match supervision.phase with
  | .draining status =>
    if supervision.out.isOver && supervision.err.isOver then
      { supervision with
        phase := .over (classify supervision.program status.code supervision.messages)
        log := supervision.log ++ supervision.closingLog status.code }
    else supervision
  | _ => supervision

/-- Tells both drains to stop, and ends the supervision with what they have stored. -/
def cutOff (supervision : Supervision) : Supervision :=
  { supervision with
    out := supervision.out.abort
    err := supervision.err.abort
    phase := .over (.error (.timeout supervision.program supervision.limit supervision.messages)) }

/-- What is logged when a process that outlived its deadline cannot be ended or waited for. -/
def unendedWarning : LogLine := .warn "Failed to terminate timed-out process"

/-- Ends a supervision whose process is not ended; the process is ended by force as it is let go. -/
def letGo (supervision : Supervision) : Supervision :=
  let stopped := supervision.cutOff
  { stopped with
    log := stopped.log.push unendedWarning
    signals := stopped.signals ++ [.kill] }

/-- The supervision with the ending of its process as far as it has come. -/
def follow (shutdown : Shutdown) (supervision : Supervision) : Supervision :=
  if shutdown.isOver then supervision.cutOff
  else { supervision with phase := .stopping shutdown }

/-- The supervision after signals of an ending, which may have failed, were tried on its process. -/
def pursue (signals : List Signal) (shutdown : Shutdown) (supervision : Supervision) :
    Supervision :=
  let tried := { supervision with signals := supervision.signals ++ signals }
  match shutdown.stage with
  | .failed _ => tried.letGo
  | _ => { tried with phase := .stopping shutdown }

/-! ## Time -/

/-- What is logged when a process outlives its deadline. -/
def timeoutWarning : LogLine := .warn "Process timeout exceeded, terminating"

/-- What is logged when pipes stay open past the deadline of an exited process. -/
def openStreamsWarning : LogLine :=
  .warn "Output streams still open at deadline after exit, aborting drains"

/-- What happens at the deadline. -/
def expireDeadline (supervision : Supervision) : Supervision :=
  match supervision.phase with
  | .running =>
    let shutdown :=
      Shutdown.begin supervision.deadline supervision.grace none supervision.answers.term
    { supervision with log := supervision.log.push timeoutWarning }.pursue shutdown.tried shutdown
  | .draining _ =>
    { supervision with log := supervision.log.push openStreamsWarning }.cutOff
  | _ => supervision

/-- What happens when the time given to a process that has to end runs out before `now`. -/
def expireGrace (now : Time) (supervision : Supervision) : Supervision :=
  match supervision.phase with
  | .stopping shutdown =>
    let later := shutdown.expire now supervision.answers.kill
    supervision.pursue (later.tried.drop shutdown.tried.length) later
  | _ => supervision

/-- What happens before `now` if nothing is heard of the process. -/
def expire (now : Time) (supervision : Supervision) : Supervision :=
  let later := if supervision.deadline < now then supervision.expireDeadline else supervision
  later.expireGrace now

/-- What happens up to and including `now`. -/
def elapse (now : Time) (supervision : Supervision) : Supervision :=
  supervision.expire (now + 1)

/-- The next instant at which something happens by itself. -/
def due? (supervision : Supervision) : Option Time :=
  match supervision.phase with
  | .running => some supervision.deadline
  | .draining _ => some supervision.deadline
  | .stopping shutdown => shutdown.due?
  | _ => none

/-! ## Events -/

/-- A drain takes one step; a line that it gives away reaches the sink and the log. -/
def drainStep (channel : Channel) (supervision : Supervision) : Supervision :=
  match (supervision.drain channel).step? with
  | none => supervision
  | some next =>
    let new := (next.given.extract (supervision.drain channel).given.size next.given.size).toList
    { supervision.setDrain channel next with
      sink := supervision.sink ++ new.map (SinkLine.ofLine supervision.program channel)
      log := supervision.log ++ new.flatMap (Line.log supervision.live) }

/-- The process is reaped. -/
def exit (status : ExitStatus) (supervision : Supervision) : Supervision :=
  match supervision.phase with
  | .running => { supervision with phase := .draining status }
  | .stopping shutdown => supervision.follow (shutdown.exit status)
  | _ => supervision

/-- The process cannot be waited for.  The drains go on, and the process is ended by force. -/
def failWait (cause : String) (supervision : Supervision) : Supervision :=
  match supervision.phase with
  | .running =>
    { supervision with
      phase := .over (.error (.io cause))
      signals := supervision.signals ++ [.kill] }
  | .stopping _ => supervision.letGo
  | _ => supervision

/-- What an event does, before the end of the run is considered. -/
def apply (event : ProcessEvent) (supervision : Supervision) : Supervision :=
  match event with
  | .wrote channel bytes =>
    supervision.setDrain channel ((supervision.drain channel).feed bytes)
  | .closed channel => supervision.setDrain channel (supervision.drain channel).close
  | .drained channel => supervision.drainStep channel
  | .lost channel => supervision.setDrain channel (supervision.drain channel).lose
  | .exited status => supervision.exit status
  | .waitFailed cause => supervision.failWait cause

/-- An event at an instant. -/
def step (now : Time) (event : ProcessEvent) (supervision : Supervision) : Supervision :=
  ((supervision.expire now).apply event).conclude

/-- The caller gives up: a process not yet reaped is ended by force, and the drains go on. -/
def abandon (supervision : Supervision) : Supervision :=
  match supervision.phase with
  | .over _ => supervision
  | .abandoned => supervision
  | .draining _ => { supervision with phase := .abandoned }
  | _ =>
    { supervision with
      phase := .abandoned
      signals := supervision.signals ++ [.kill] }

/-! ## Running on -/

/-- Bounds the steps that the drains can take before both have to wait. -/
def weight (supervision : Supervision) : Nat :=
  supervision.out.weight + supervision.err.weight

@[simp] theorem weight_conclude (supervision : Supervision) :
    supervision.conclude.weight = supervision.weight := by
  unfold conclude
  split
  · split <;> rfl
  · rfl

theorem weight_drainStep_lt {channel : Channel} {supervision : Supervision}
    (ready : (supervision.drain channel).step?.isSome) :
    (supervision.drainStep channel).weight < supervision.weight := by
  obtain ⟨next, stepped⟩ := Option.isSome_iff_exists.1 ready
  have lighter := Output.Drain.weight_step?_lt stepped
  cases channel <;>
    simp only [drainStep, stepped, weight, setDrain] <;>
    simp only [drain] at lighter <;>
    omega

/-- The drains take steps until both have to wait or are over. -/
def settle (supervision : Supervision) : Supervision :=
  if _out : (supervision.drain .out).step?.isSome then
    settle (supervision.drainStep .out).conclude
  else if _err : (supervision.drain .err).step?.isSome then
    settle (supervision.drainStep .err).conclude
  else supervision
termination_by supervision.weight
decreasing_by
  · simpa using weight_drainStep_lt _out
  · simpa using weight_drainStep_lt _err

/-- An event at an instant, followed by all that the drains can do then. -/
def observe (now : Time) (event : ProcessEvent) (supervision : Supervision) : Supervision :=
  (supervision.step now event).settle

/-- How the run ended, once it has. -/
def outcome? (supervision : Supervision) : Option Outcome :=
  match supervision.phase with
  | .over outcome => some outcome
  | _ => none

end Supervision

end Turnstile
