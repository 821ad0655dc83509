import Turnstile.Claims
import Turnstile.Limits
import Turnstile.Outcome
import Turnstile.Semaphore

/-!
# Admission gates

One gate per category holds as many permits as processes of the category may run
at once.  Callers are admitted in the order in which they came.
-/

namespace Turnstile

/-- What became of a caller at a gate. -/
inductive GateClaim where
  | waiting
  | held
  | released
  /-- Left the line. -/
  | cancelled
  /-- Sent away because the gate was closed. -/
  | interrupted
  deriving DecidableEq, Repr

/-- The gate of one category. -/
structure Gate (ι : Type) where
  category : Category
  limits : Limits
  semaphore : Semaphore ι
  claims : Claims ι GateClaim := []

namespace Gate

/-- The most permits that a gate can hold. -/
def maxCapacity : Nat := 2305843009213693951

/-- Limits with a concurrency that a gate can hold. -/
def fitting (limits : Limits) : Limits where
  maxConcurrency := min limits.maxConcurrency maxCapacity
  timeout := limits.timeout
  positive := by
    have := limits.positive
    unfold maxCapacity
    omega

variable {ι : Type}

/-- A gate that nobody has passed. -/
def of (category : Category) (limits : Limits) : Gate ι where
  category := category
  limits := fitting limits
  semaphore := { free := (fitting limits).maxConcurrency }

def capacity (gate : Gate ι) : Nat := gate.limits.maxConcurrency

/-- Permits that are free. -/
def available (gate : Gate ι) : Nat := gate.semaphore.free

def isClosed (gate : Gate ι) : Bool := gate.semaphore.isClosed

/-- The failure of those who are sent away. -/
def interruption (gate : Gate ι) : Failure :=
  .waitingForSlot gate.category

variable [DecidableEq ι]

/-- A new caller asks for a permit. -/
def acquire (who : ι) (gate : Gate ι) : Gate ι :=
  match gate.claims.get? who with
  | some _ => gate
  | none =>
    let (grant, semaphore) := gate.semaphore.acquire who
    let claim := match grant with
      | .granted => GateClaim.held
      | .queued => .waiting
      | .refused => .interrupted
    { gate with semaphore, claims := gate.claims.enter who claim }

/-- The claims after a permit went to the caller who was first in line, if there was one. -/
def handOver (first : Option ι) (claims : Claims ι GateClaim) : Claims ι GateClaim :=
  match first with
  | none => claims
  | some who => claims.set who .held

/-- A caller gives a permit back. -/
def release (who : ι) (gate : Gate ι) : Gate ι :=
  match gate.claims.get? who with
  | some .held =>
    let (first, semaphore) := gate.semaphore.release
    { gate with semaphore, claims := handOver first (gate.claims.set who .released) }
  | _ => gate

/-- A caller stops waiting. -/
def cancel (who : ι) (gate : Gate ι) : Gate ι :=
  match gate.claims.get? who with
  | some .waiting =>
    { gate with
      semaphore := gate.semaphore.withdraw who
      claims := gate.claims.set who .cancelled }
  | _ => gate

omit [DecidableEq ι] in
/-- Closes the gate.  Permits that are held stay valid. -/
def close (gate : Gate ι) : Gate ι :=
  { gate with
    semaphore := gate.semaphore.close
    claims := gate.claims.mapStates fun
      | .waiting => .interrupted
      | claim => claim }

/-- A caller who waits leaves the line, and one who is admitted gives the permit back. -/
def leave (who : ι) (gate : Gate ι) : Gate ι :=
  (gate.cancel who).release who

end Gate

end Turnstile
