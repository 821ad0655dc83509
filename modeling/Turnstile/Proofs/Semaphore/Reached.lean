import Turnstile.Proofs.Gate.Moves
import Turnstile.Proofs.Pool.Moves
import Turnstile.Proofs.Semaphore.Service

/-!
# The semaphores of gates and servers

A gate and each slot of a pool do nothing to their semaphores but ask them, so any service
that obeys the laws could be in their place.
-/

namespace Turnstile

namespace Semaphore

variable {ι : Type} [DecidableEq ι]

/-- A semaphore has come to stand as it does by what was asked of it. -/
def Reached (capacity : Nat) (semaphore : Semaphore ι) : Prop :=
  ∃ calls, (service ι).stateAfter capacity calls = semaphore

namespace Reached

variable {capacity : Nat} {semaphore : Semaphore ι}

theorem start (capacity : Nat) : Reached capacity ({ free := capacity } : Semaphore ι) :=
  ⟨[], rfl⟩

theorem perform (reached : Reached capacity semaphore) (call : Call ι) :
    Reached capacity ((service ι).perform semaphore call).2 := by
  obtain ⟨calls, rfl⟩ := reached
  exact ⟨calls ++ [call], Service.stateAfter_concat _ _ _ _⟩

theorem acquire (reached : Reached capacity semaphore) (who : ι) :
    Reached capacity (semaphore.acquire who).2 :=
  reached.perform (.acquire who)

theorem release (reached : Reached capacity semaphore) :
    Reached capacity semaphore.release.2 := by
  have performed := reached.perform .release
  cases woken : ((service ι).release semaphore).1 with
  | none =>
      rw [Service.perform_release_of_none _ woken] at performed
      exact performed
  | some who =>
      rw [Service.perform_release_of_some _ woken] at performed
      exact performed

theorem withdraw (reached : Reached capacity semaphore) (who : ι) :
    Reached capacity (semaphore.withdraw who) :=
  reached.perform (.withdraw who)

theorem close (reached : Reached capacity semaphore) : Reached capacity semaphore.close :=
  reached.perform .close

/-- Any service that obeys the laws answers the calls that have led to it in the same way. -/
theorem answersAlike {other : Service ι} (reached : Reached capacity semaphore)
    (lawful : other.Lawful) :
    ∃ calls, (service ι).stateAfter capacity calls = semaphore ∧
      other.AnswersAlike capacity calls := by
  obtain ⟨calls, led⟩ := reached
  exact ⟨calls, led, lawful.answersAlike capacity calls⟩

end Reached

end Semaphore

namespace Gate

variable {ι : Type} [DecidableEq ι]

theorem reached_step {capacity : Nat} {gate : Gate ι}
    (reached : gate.semaphore.Reached capacity) (action : Action ι) :
    (gate.step action).semaphore.Reached capacity := by
  cases action with
  | acquire who =>
      rw [step, acquire]
      split
      · exact reached
      · exact reached.acquire who
  | release who =>
      rw [step, release]
      split
      · exact reached.release
      · exact reached
  | cancel who =>
      rw [step, cancel]
      split
      · exact reached.withdraw who
      · exact reached
  | close => exact reached.close

/-- A gate does nothing to its semaphore but ask it. -/
theorem reached_run (category : Category) (limits : Limits) (actions : List (Action ι)) :
    ((of category limits).run actions).semaphore.Reached (fitting limits).maxConcurrency := by
  induction actions using List.reverseRecOn with
  | nil => exact .start _
  | append_singleton actions action ih =>
      rw [run_concat]
      exact reached_step ih action

end Gate

namespace Pool

variable {ι : Type} [DecidableEq ι]

/-- Each slot has a semaphore with one permit, which stands as it does by what it was asked. -/
def Reached (pool : Pool ι) : Prop :=
  ∀ slot ∈ pool.slots, slot.semaphore.Reached 1

namespace Reached

variable {pool : Pool ι} {index : Nat}

theorem of (endpoints : List Endpoint) : (Pool.of endpoints : Pool ι).Reached := by
  intro slot member
  obtain ⟨_, _, rfl⟩ := List.mem_map.mp member
  exact .start 1

theorem semaphore (reached : pool.Reached) {slot : Slot ι} (found : pool.slots[index]? = some slot) :
    slot.semaphore.Reached 1 :=
  reached slot (List.mem_of_getElem? found)

theorem modify (reached : pool.Reached) {change : Slot ι → Slot ι}
    (keeps : ∀ slot : Slot ι, slot.semaphore.Reached 1 → (change slot).semaphore.Reached 1) :
    ∀ slot ∈ pool.slots.modify index change, slot.semaphore.Reached 1 := by
  intro slot member
  obtain ⟨place, found⟩ := List.mem_iff_getElem?.mp member
  rw [List.getElem?_modify, Option.map_eq_map] at found
  obtain ⟨old, known, rfl⟩ := Option.map_eq_some_iff.mp found
  split
  · exact keeps old (reached.semaphore known)
  · exact reached.semaphore known

theorem setSemaphore (reached : pool.Reached) {semaphore : Semaphore ι}
    (other : semaphore.Reached 1) : (pool.setSemaphore index semaphore).Reached :=
  reached.modify fun _ _ => other

theorem freeSlot (reached : pool.Reached) : (pool.freeSlot index).Reached := by
  rw [Pool.freeSlot]
  split
  · exact reached
  · rename_i slot found
    exact reached.setSemaphore (reached.semaphore found).release

theorem acquire (reached : pool.Reached) (who : ι) : (pool.acquire who).Reached := by
  rw [Pool.acquire]
  split
  · exact reached
  · dsimp only
    split
    · exact reached
    · rename_i slot found
      exact reached.setSemaphore ((reached.semaphore found).acquire who)

theorem closeLease (reached : pool.Reached) (who : ι) : (pool.closeLease who).Reached := by
  rw [Pool.closeLease]
  split
  · exact freeSlot reached
  · exact reached

theorem drop (reached : pool.Reached) (who : ι) : (pool.drop who).Reached := by
  rw [Pool.drop]
  split
  · exact freeSlot reached
  all_goals exact reached

theorem cancel (reached : pool.Reached) (who : ι) : (pool.cancel who).Reached := by
  rw [Pool.cancel]
  split
  · exact reached.modify fun _ old => old.withdraw who
  · exact reached

theorem close (reached : pool.Reached) : pool.close.Reached := by
  intro slot member
  obtain ⟨old, known, rfl⟩ := List.mem_map.mp member
  exact (reached old known).close

theorem step (reached : pool.Reached) (action : Action ι) : (pool.step action).Reached := by
  cases action with
  | acquire who => exact reached.acquire who
  | closeLease who => exact reached.closeLease who
  | drop who => exact reached.drop who
  | cancel who => exact reached.cancel who
  | close => exact reached.close

end Reached

/-- A pool does nothing to the semaphores of its slots but ask them. -/
theorem reached_run (endpoints : List Endpoint) (actions : List (Action ι)) :
    ((of endpoints).run actions).Reached := by
  induction actions using List.reverseRecOn with
  | nil => exact .of endpoints
  | append_singleton actions action ih =>
      rw [run_concat]
      exact ih.step action

end Pool

end Turnstile
