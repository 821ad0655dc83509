import Turnstile.Pool
import Turnstile.Proofs.Claims

/-!
# The slots of a pool

What a pool says of one slot: who waits for it, who holds it, and whether it is
the one that the next caller asks for.
-/

namespace Turnstile

namespace PoolClaim

/-- The slot that a claim is about. -/
def slot? : PoolClaim → Option Nat
  | .waiting slot => some slot
  | .leased slot _ => some slot
  | _ => none

/-- A claim that neither waits nor holds a server. -/
def isIdle : PoolClaim → Bool
  | .waiting _ => false
  | .leased _ isOpen => !isOpen
  | _ => true

end PoolClaim

namespace Pool

variable {ι : Type}

/-- The callers who wait for a slot, in order of arrival. -/
def line (pool : Pool ι) (index : Nat) : List ι :=
  pool.claims.having fun claim => claim = .waiting index

/-- The callers with an open lease of a slot. -/
def holders (pool : Pool ι) (index : Nat) : List ι :=
  pool.claims.having fun claim => claim = .leased index true

/-- Whether callers are sent away. -/
def isClosed (pool : Pool ι) : Bool :=
  pool.slots.any fun slot => slot.semaphore.isClosed

/-! ## Slots -/

theorem getElem?_setSemaphore (pool : Pool ι) (index other : Nat) (semaphore : Semaphore ι) :
    (pool.setSemaphore index semaphore).slots[other]? =
      if index = other then (pool.slots[other]?).map fun slot => { slot with semaphore }
      else pool.slots[other]? := by
  simp only [setSemaphore, List.getElem?_modify]
  split <;> simp

theorem exists_slot {pool : Pool ι} {index : Nat} (bound : index < pool.size) :
    ∃ slot : Slot ι, pool.slots[index]? = some slot :=
  ⟨pool.slots[index], List.getElem?_eq_getElem bound⟩

theorem lt_size_of_slot {pool : Pool ι} {index : Nat} {slot : Slot ι}
    (found : pool.slots[index]? = some slot) : index < pool.size :=
  (List.getElem?_eq_some_iff.mp found).1

theorem isClosed_eq_true_iff {pool : Pool ι} :
    pool.isClosed = true ↔
      ∃ (index : Nat) (slot : Slot ι),
        pool.slots[index]? = some slot ∧ slot.semaphore.isClosed = true := by
  simp only [isClosed, List.any_eq_true, List.mem_iff_getElem?]
  constructor
  · rintro ⟨slot, ⟨index, found⟩, closed⟩
    exact ⟨index, slot, found, closed⟩
  · rintro ⟨index, slot, found, closed⟩
    exact ⟨slot, ⟨index, found⟩, closed⟩

/-- Which slots are closed, in the order of the slots. -/
def closures (pool : Pool ι) : List Bool :=
  pool.slots.map fun slot => slot.semaphore.isClosed

theorem length_closures (pool : Pool ι) : pool.closures.length = pool.size :=
  List.length_map _

theorem any_closures (pool : Pool ι) : pool.closures.any id = pool.isClosed := by
  simp only [closures, List.any_map]
  rfl

/-- A semaphore may be replaced by one that is as open or closed as it was. -/
theorem closures_setSemaphore {pool : Pool ι} {index : Nat} {slot : Slot ι}
    (found : pool.slots[index]? = some slot) {semaphore : Semaphore ι}
    (same : semaphore.isClosed = slot.semaphore.isClosed) :
    (pool.setSemaphore index semaphore).closures = pool.closures := by
  apply List.ext_getElem?
  intro other
  simp only [closures, List.getElem?_map, getElem?_setSemaphore]
  split
  · rename_i here
    subst here
    simp [found, same]
  · rfl

theorem isClosed_setSemaphore {pool : Pool ι} {index : Nat} {slot : Slot ι}
    (found : pool.slots[index]? = some slot) {semaphore : Semaphore ι}
    (same : semaphore.isClosed = slot.semaphore.isClosed) :
    (pool.setSemaphore index semaphore).isClosed = pool.isClosed := by
  rw [← any_closures, closures_setSemaphore found same, any_closures]

/-! ## The slot that a caller asks for -/

theorem start_lt {pool : Pool ι} (some : 0 < pool.size) : pool.start < pool.size :=
  Nat.mod_lt _ some

/-- Every slot is looked at. -/
theorem mem_order {pool : Pool ι} {index : Nat} (bound : index < pool.size) :
    index ∈ pool.order := by
  have start := start_lt (Nat.zero_lt_of_lt bound)
  rw [order, List.mem_map]
  rcases Nat.le_total pool.start index with ahead | behind
  · refine ⟨index - pool.start, List.mem_range.mpr (by omega), ?_⟩
    rw [Nat.add_sub_cancel' ahead]
    exact Nat.mod_eq_of_lt bound
  · by_cases same : index = pool.start
    · exact ⟨0, List.mem_range.mpr (by omega), by rw [same]; exact Nat.mod_eq_of_lt start⟩
    · refine ⟨index + pool.size - pool.start, List.mem_range.mpr (by omega), ?_⟩
      rw [Nat.add_sub_cancel' (by omega), Nat.add_mod_right]
      exact Nat.mod_eq_of_lt bound

theorem lt_size_of_mem_order {pool : Pool ι} {index : Nat} (member : index ∈ pool.order) :
    index < pool.size := by
  obtain ⟨offset, bound, rfl⟩ := List.mem_map.mp member
  exact Nat.mod_lt _ (Nat.zero_lt_of_lt (List.mem_range.mp bound))

/-- The slot asked for need not be waited for, or it is the first of slots that all must be. -/
theorem choice_spec {pool : Pool ι} (some : 0 < pool.size) :
    pool.choice < pool.size ∧
      (pool.isBusyAt pool.choice = false ∨
        pool.choice = pool.start ∧ ∀ index < pool.size, pool.isBusyAt index = true) := by
  unfold choice
  cases found : pool.order.find? fun index => !pool.isBusyAt index with
  | some index =>
      have idle := List.find?_some found
      exact ⟨lt_size_of_mem_order (List.mem_of_find?_eq_some found), .inl (by simpa using idle)⟩
  | none =>
      refine ⟨start_lt some, .inr ⟨rfl, ?_⟩⟩
      intro index bound
      have busy := List.find?_eq_none.mp found index (mem_order bound)
      simpa using busy

theorem isBusyAt_of_slot {pool : Pool ι} {index : Nat} {slot : Slot ι}
    (found : pool.slots[index]? = some slot) : pool.isBusyAt index = slot.semaphore.isBusy := by
  simp [isBusyAt, found]

end Pool

end Turnstile
