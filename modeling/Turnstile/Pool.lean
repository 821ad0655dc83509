import Turnstile.Claims
import Turnstile.Endpoint
import Turnstile.Outcome
import Turnstile.Semaphore

/-!
# The server pool

Servers that are leased to one caller at a time.  Each caller starts looking one
server further than the caller before, takes the first free one from there, and
waits for the one it started at if none is free.
-/

namespace Turnstile

/-- A pooled server and the permit to use it. -/
structure Slot (ι : Type) where
  endpoint : Endpoint
  semaphore : Semaphore ι
  deriving DecidableEq, Repr

/-- What became of a caller at the pool. -/
inductive PoolClaim where
  | waiting (slot : Nat)
  /-- A lease, which holds its server while it is open. -/
  | leased (slot : Nat) (isOpen : Bool)
  /-- The lease that a pool without servers gives. -/
  | placeholder
  | dropped
  /-- Stopped waiting. -/
  | cancelled
  /-- Sent away because the pool was closed. -/
  | interrupted
  deriving DecidableEq, Repr

structure Pool (ι : Type) where
  slots : List (Slot ι)
  /-- How often servers have been asked for, in a 64-bit word. -/
  turn : UInt64 := 0
  claims : Claims ι PoolClaim := []
  deriving DecidableEq, Repr

namespace Slot

variable {ι : Type}

def of (endpoint : Endpoint) : Slot ι := ⟨endpoint, { free := 1 }⟩

end Slot

namespace Pool

variable {ι : Type}

/-- A pool of servers of which none is leased. -/
def of (endpoints : List Endpoint) : Pool ι where
  slots := endpoints.map .of

def size (pool : Pool ι) : Nat := pool.slots.length

def isEmpty (pool : Pool ι) : Bool := pool.slots.isEmpty

def endpoints (pool : Pool ι) : List Endpoint := pool.slots.map Slot.endpoint

/-- Servers that are not leased. -/
def available (pool : Pool ι) : Nat :=
  pool.slots.countP fun slot => 0 < slot.semaphore.free

/-- The slot that the next caller starts at. -/
def start (pool : Pool ι) : Nat := pool.turn.toNat % pool.size

/-- The slots in the order in which the next caller looks at them. -/
def order (pool : Pool ι) : List Nat :=
  (List.range pool.size).map fun offset => (pool.start + offset) % pool.size

def isBusyAt (pool : Pool ι) (index : Nat) : Bool :=
  (pool.slots[index]?).any fun slot => slot.semaphore.isBusy

/-- The slot that the next caller asks for: the first that need not be waited for. -/
def choice (pool : Pool ι) : Nat :=
  (pool.order.find? fun index => !pool.isBusyAt index).getD pool.start

/-- The address of the server in a slot. -/
def endpointAt (pool : Pool ι) (index : Nat) : Endpoint :=
  (pool.slots[index]?).elim .fallback Slot.endpoint

/-- The pool with the semaphore of a slot replaced. -/
def setSemaphore (pool : Pool ι) (index : Nat) (semaphore : Semaphore ι) : Pool ι :=
  { pool with slots := pool.slots.modify index fun slot => { slot with semaphore } }

variable [DecidableEq ι]

/-- A new caller asks for a lease. -/
def acquire (who : ι) (pool : Pool ι) : Pool ι :=
  match pool.claims.get? who with
  | some _ => pool
  | none =>
    let index := pool.choice
    match pool.slots[index]? with
    | none => { pool with claims := pool.claims.enter who .placeholder }
    | some slot =>
      let (grant, semaphore) := slot.semaphore.acquire who
      let claim := match grant with
        | .granted => PoolClaim.leased index true
        | .queued => .waiting index
        | .refused => .interrupted
      { pool.setSemaphore index semaphore with
        turn := pool.turn + 1
        claims := pool.claims.enter who claim }

/-- The claims after a server went to the caller who was first in line, if there was one. -/
def handOver (index : Nat) (first : Option ι) (claims : Claims ι PoolClaim) : Claims ι PoolClaim :=
  match first with
  | none => claims
  | some who => claims.set who (.leased index true)

/-- Gives the server in a slot back. -/
def freeSlot (index : Nat) (pool : Pool ι) : Pool ι :=
  match pool.slots[index]? with
  | none => pool
  | some slot =>
    let (first, semaphore) := slot.semaphore.release
    { pool.setSemaphore index semaphore with claims := handOver index first pool.claims }

/-- The pool with the state of a caller replaced. -/
def setClaim (who : ι) (claim : PoolClaim) (pool : Pool ι) : Pool ι :=
  { pool with claims := pool.claims.set who claim }

/-- A caller gives its server back and keeps the closed lease. -/
def closeLease (who : ι) (pool : Pool ι) : Pool ι :=
  match pool.claims.get? who with
  | some (.leased index true) => (pool.setClaim who (.leased index false)).freeSlot index
  | _ => pool

/-- A caller drops its lease, and gives its server back if it has not done so before. -/
def drop (who : ι) (pool : Pool ι) : Pool ι :=
  match pool.claims.get? who with
  | some (.leased index true) => (pool.setClaim who .dropped).freeSlot index
  | some (.leased _ false) => pool.setClaim who .dropped
  | some .placeholder => pool.setClaim who .dropped
  | _ => pool

/-- A caller stops waiting. -/
def cancel (who : ι) (pool : Pool ι) : Pool ι :=
  match pool.claims.get? who with
  | some (.waiting index) =>
    { pool with
      slots := pool.slots.modify index fun slot =>
        { slot with semaphore := slot.semaphore.withdraw who }
      claims := pool.claims.set who .cancelled }
  | _ => pool

omit [DecidableEq ι] in
/-- Closes the pool.  Leases that are held stay valid. -/
def close (pool : Pool ι) : Pool ι :=
  { pool with
    slots := pool.slots.map fun slot => { slot with semaphore := slot.semaphore.close }
    claims := pool.claims.mapStates fun
      | .waiting _ => .interrupted
      | claim => claim }

/-- A caller who waits leaves the line, and one with a lease drops it. -/
def leave (who : ι) (pool : Pool ι) : Pool ι :=
  (pool.cancel who).drop who

end Pool

end Turnstile
