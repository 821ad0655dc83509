import Turnstile.Proofs.Endpoint.Resolve
import Turnstile.Proofs.Pool.Moves

/-!
# Leases and servers

A slot is leased to one caller at a time.  A server is as well, if it stands in one
slot only: the callers who hold leases of a pool then use different servers, in
every state that the pool comes to.
-/

namespace Turnstile.Pool

variable {ι : Type}

/-! ## The endpoints of the slots -/

theorem endpointAt_eq (pool : Pool ι) (index : Nat) :
    pool.endpointAt index = (pool.endpoints[index]?).getD .fallback := by
  cases found : pool.slots[index]? <;> simp [endpointAt, endpoints, found]

theorem endpoints_of (servers : List Endpoint) : (of servers : Pool ι).endpoints = servers := by
  simp [of, endpoints, Slot.of, Function.comp_def]

theorem endpoints_setSemaphore (pool : Pool ι) (index : Nat) (semaphore : Semaphore ι) :
    (pool.setSemaphore index semaphore).endpoints = pool.endpoints := by
  apply List.ext_getElem?
  intro other
  simp only [endpoints, List.getElem?_map, getElem?_setSemaphore]
  split
  · rw [Option.map_map]
    rfl
  · rfl

variable [DecidableEq ι]

theorem endpoints_giveBack (pool : Pool ι) (who : ι) (index : Nat) (claim : PoolClaim) :
    (pool.giveBack who index claim).endpoints = pool.endpoints := by
  unfold giveBack freeSlot
  split
  · rfl
  · exact endpoints_setSemaphore (pool.setClaim who claim) index _

namespace Consistent

variable {pool : Pool ι}

/-- No action moves a server to another slot. -/
theorem endpoints_step (consistent : pool.Consistent) (action : Action ι) :
    (pool.step action).endpoints = pool.endpoints := by
  have effect := consistent.effect action
  generalize pool.step action = after at effect
  cases effect with
  | nothing => rfl
  | asked fresh admission => cases admission <;> exact endpoints_setSemaphore pool _ _
  | pretended => rfl
  | closed => exact endpoints_giveBack pool _ _ _
  | dropped => exact endpoints_giveBack pool _ _ _
  | discarded => rfl
  | left => exact endpoints_setSemaphore pool _ _
  | shut => simp [Pool.close, endpoints, Function.comp_def]

theorem endpoints_run (consistent : pool.Consistent) (actions : List (Action ι)) :
    (pool.run actions).endpoints = pool.endpoints := by
  induction actions generalizing pool with
  | nil => rfl
  | cons action actions ih =>
      exact (ih (consistent.step action)).trans (consistent.endpoints_step action)

/-- A pool that has servers gives leases of its servers only. -/
theorem not_placeholder_run (consistent : pool.Consistent) (nonempty : 0 < pool.size)
    {who : ι} (start : pool.claims.get? who ≠ some .placeholder) (actions : List (Action ι)) :
    (pool.run actions).claims.get? who ≠ some .placeholder := by
  induction actions generalizing pool with
  | nil => exact start
  | cons action actions ih =>
      refine ih (consistent.step action) (consistent.size_step action ▸ nonempty) ?_
      have moves := consistent.moves action who
      intro pretended
      rw [pretended] at moves
      generalize pool.claims.get? who = claim at moves start
      cases moves with
      | stays => exact start rfl
      | pretended empty => omega

end Consistent

/-! ## Who uses which server -/

/-- The server that a caller with a lease uses. -/
def serverOf? (pool : Pool ι) (who : ι) : Option Endpoint :=
  match pool.claims.get? who with
  | some (.leased index true) => some (pool.endpointAt index)
  | some .placeholder => some .fallback
  | _ => none

/-- No two callers with leases use one server. -/
def ServesApart (pool : Pool ι) : Prop :=
  ∀ first second one other, first ≠ second → pool.serverOf? first = some one →
    pool.serverOf? second = some other → ¬ one.SameAddress other

theorem serverOf?_eq_some_iff {pool : Pool ι} {who : ι}
    (genuine : pool.claims.get? who ≠ some .placeholder) {server : Endpoint} :
    pool.serverOf? who = some server ↔
      ∃ index, pool.claims.get? who = some (.leased index true) ∧
        pool.endpointAt index = server := by
  unfold serverOf?
  split
  · rename_i index held
    simp [held]
  · rename_i pretended
    exact absurd pretended genuine
  · rename_i held _
    simp only [reduceCtorEq, false_iff, not_exists, not_and]
    intro index leased
    exact absurd leased (held index)

/-- Slots are leased to one caller at a time, and so are servers that stand in one slot each. -/
theorem Consistent.servesApart {pool : Pool ι} (consistent : pool.Consistent)
    (apart : Endpoint.Apart pool.endpoints)
    (genuine : ∀ who, pool.claims.get? who ≠ some .placeholder) : pool.ServesApart := by
  intro first second one other different uses shares same
  obtain ⟨i, first_holds, rfl⟩ := (serverOf?_eq_some_iff (genuine first)).mp uses
  obtain ⟨j, second_holds, rfl⟩ := (serverOf?_eq_some_iff (genuine second)).mp shares
  have found {index : Nat} (bound : index < pool.size) :
      pool.endpoints[index]? = some (pool.endpointAt index) := by
    have bound : index < pool.endpoints.length := by
      rw [endpoints, List.length_map]
      exact bound
    rw [endpointAt_eq, List.getElem?_eq_getElem bound, Option.getD_some]
  have slot : i = j := apart.eq_of_sameAddress (found (consistent.placed first_holds rfl))
    (found (consistent.placed second_holds rfl)) same
  subst slot
  exact different (consistent.eq_of_leased first_holds second_holds)

variable {settings : Settings}

/--
Whatever callers do with a pool, those who hold leases use different servers, if the
settings do not name one server twice.
-/
theorem servesApart_run (enabled : settings.poolEnabled = true)
    (apart : settings.autoPool = false → settings.NamesApart) (actions : List (Action ι)) :
    ((of (Endpoint.resolve settings).1).run actions).ServesApart := by
  have start : (of (Endpoint.resolve settings).1 : Pool ι).Consistent := .of _
  have nonempty : 0 < (of (Endpoint.resolve settings).1 : Pool ι).size := by
    simpa [of, size] using List.length_pos_iff.mpr (Endpoint.resolve_ne_nil enabled)
  refine (start.run actions).servesApart ?_ ?_
  · rw [start.endpoints_run, endpoints_of]
    exact Endpoint.apart_resolve enabled apart
  · intro who
    refine start.not_placeholder_run nonempty ?_ actions
    simp [of]

/-- Settings that name two servers on one host. -/
def twoServers : Settings where
  pool := { auto := some false, endpoints := [
    { host := some "10.0.0.1", port := some 2003 },
    { host := some "10.0.0.1", port := some 2005 }] }

/-- Two callers of two servers on one host use different ones. -/
theorem servesApart_run_two :
    twoServers.poolEnabled = true ∧ twoServers.NamesApart ∧
      ((of (Endpoint.resolve twoServers).1).run
        [.acquire 0, .acquire 1, .closeLease 0, .acquire 2]).ServesApart := by
  have apart : twoServers.NamesApart := by decide
  exact ⟨rfl, apart, servesApart_run rfl (fun _ => apart) _⟩

/-- Settings that name one server twice, the second time with blanks around its host. -/
def oneServerTwice : Settings where
  pool := { auto := some false, endpoints := [
    { host := some "10.0.0.1", port := some 2003 },
    { host := some " 10.0.0.1 ", port := some 2003 }] }

/-- A server that is named twice is used by two callers, and so is the one of an empty pool. -/
theorem shared_server :
    ¬ ((of (Endpoint.resolve oneServerTwice).1).run [.acquire 0, .acquire 1]).ServesApart ∧
      ¬ ((of (Endpoint.resolve { pool := { enabled := some false } }).1).run
        [.acquire 0, .acquire 1]).ServesApart := by
  constructor
  · intro apart
    exact apart 0 1 (.plain "10.0.0.1" 2003) (.plain "10.0.0.1" 2003) (by decide) (by decide)
      (by decide) ⟨rfl, rfl⟩
  · intro apart
    exact apart 0 1 .fallback .fallback (by decide) rfl rfl ⟨rfl, rfl⟩

end Turnstile.Pool
