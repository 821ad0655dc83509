/-!
# Semaphores

A number of permits that are handed out one at a time.  Who finds none free
waits in line, and a permit that is given back goes to the first in line.  This stands
for semaphores that somebody else provides: `Semaphore.Service.Lawful` names what
is assumed of those.
-/

namespace Turnstile

/-- Permits, with the callers who wait for one. -/
structure Semaphore (ι : Type) where
  free : Nat
  queue : List ι := []
  isClosed : Bool := false
  deriving DecidableEq, Repr

namespace Semaphore

variable {ι : Type}

/-- What a caller is told. -/
inductive Grant where
  | granted
  | queued
  | refused
  deriving DecidableEq, Repr

/-- A caller asks for a permit, and waits in line if none is free. -/
def acquire (who : ι) (semaphore : Semaphore ι) : Grant × Semaphore ι :=
  if semaphore.isClosed then (.refused, semaphore)
  else if 0 < semaphore.free then (.granted, { semaphore with free := semaphore.free - 1 })
  else (.queued, { semaphore with queue := semaphore.queue ++ [who] })

/-- A permit is given back.  The first in line gets it, if anyone waits. -/
def release (semaphore : Semaphore ι) : Option ι × Semaphore ι :=
  match semaphore.queue with
  | [] => (none, { semaphore with free := semaphore.free + 1 })
  | first :: rest => (some first, { semaphore with queue := rest })

/-- A caller leaves the line. -/
def withdraw [DecidableEq ι] (who : ι) (semaphore : Semaphore ι) : Semaphore ι :=
  { semaphore with queue := semaphore.queue.erase who }

/-- Sends everyone in line away, and everyone who comes later. -/
def close (semaphore : Semaphore ι) : Semaphore ι :=
  { semaphore with queue := [], isClosed := true }

/-- Whether a caller would have to wait. -/
def isBusy (semaphore : Semaphore ι) : Bool :=
  !semaphore.isClosed && semaphore.free == 0

end Semaphore

end Turnstile
