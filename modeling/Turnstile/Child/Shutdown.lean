import Turnstile.Child.Status
import Turnstile.Time

/-!
# Ending a child

A child is asked to end, given some time, and then ended by force.  Nothing is
tried on a child that was reaped, and the end is reported only once it is reaped,
or once the system refuses a signal.
-/

namespace Turnstile

/-- What becomes of a signal. -/
inductive Delivery where
  | accepted
  /-- There is no such process. -/
  | gone
  | refused (cause : String)
  deriving DecidableEq, Repr

/-- What becomes of the request to end and of the signal that ends by force. -/
structure Answers where
  term : Delivery := .accepted
  kill : Delivery := .accepted
  deriving DecidableEq, Repr

/-- How far the ending of a child has come. -/
inductive ShutdownStage where
  /-- Asked to end; to be ended by force at an instant. -/
  | patient (killAt : Time)
  /-- The time given to the child has run out, and force is next. -/
  | overdue
  /-- Ended by force, and not reaped. -/
  | forced
  /-- Gone before it could be asked, and not reaped. -/
  | awaited
  | reaped (status : ExitStatus)
  | failed (cause : String)
  deriving DecidableEq, Repr

structure Shutdown where
  stage : ShutdownStage
  /-- The signals tried, in order. -/
  tried : List Signal := []
  deriving DecidableEq, Repr

namespace Shutdown

/-- What the system says where it finds no process. -/
def noProcess : String := "No such process (os error 3)"

/-- Starts to end a child, which may have been reaped before; `answer` is what becomes of a request. -/
def begin (now grace : Time) (reaped : Option ExitStatus) (answer : Delivery) : Shutdown :=
  match reaped with
  | some status => { stage := .reaped status }
  | none =>
    match answer with
    | .accepted => { stage := .patient (now + grace), tried := [.term] }
    | .gone => { stage := .awaited, tried := [.term] }
    | .refused cause => { stage := .failed cause, tried := [.term] }

/-- The child is reaped. -/
def exit (status : ExitStatus) (shutdown : Shutdown) : Shutdown :=
  match shutdown.stage with
  | .reaped _ => shutdown
  | .failed _ => shutdown
  | _ => { shutdown with stage := .reaped status }

/-- The time given to the child may run out before `now`. -/
def timeUp (now : Time) (shutdown : Shutdown) : Shutdown :=
  match shutdown.stage with
  | .patient killAt => if killAt < now then { shutdown with stage := .overdue } else shutdown
  | _ => shutdown

/-- Ends a child whose time has run out; unlike a request, the signal has to find a process. -/
def force (answer : Delivery) (shutdown : Shutdown) : Shutdown :=
  match shutdown.stage with
  | .overdue =>
    let tried := shutdown.tried ++ [.kill]
    match answer with
    | .accepted => { stage := .forced, tried }
    | .gone => { stage := .failed noProcess, tried }
    | .refused cause => { stage := .failed cause, tried }
  | _ => shutdown

/-- What happens before `now` if the child does not exit. -/
def expire (now : Time) (answer : Delivery) (shutdown : Shutdown) : Shutdown :=
  (shutdown.timeUp now).force answer

/-- The instant up to which the child is given time. -/
def due? (shutdown : Shutdown) : Option Time :=
  match shutdown.stage with
  | .patient killAt => some killAt
  | _ => none

/-- Whether there is nothing left to wait for. -/
def isOver (shutdown : Shutdown) : Bool :=
  match shutdown.stage with
  | .reaped _ => true
  | .failed _ => true
  | _ => false

/-- The status of the child, once it is reaped. -/
def status? (shutdown : Shutdown) : Option ExitStatus :=
  match shutdown.stage with
  | .reaped status => some status
  | _ => none

end Shutdown

end Turnstile
