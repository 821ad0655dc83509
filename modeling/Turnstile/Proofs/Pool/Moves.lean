import Turnstile.Proofs.Pool.Balance

/-!
# What one action makes of every claim

Callers and the owner of a pool act one after another.  One action moves a claim
along its life: a caller is let in, made to wait or sent away; one who waits is
served, gives up or is sent away; a lease is closed and dropped.  No claim moves
in any other way.
-/

namespace Turnstile.Pool

/-- What callers do with a pool, and what its owner does. -/
inductive Action (ι : Type) where
  | acquire (who : ι)
  | closeLease (who : ι)
  /-- Also what becomes of a lease whose caller gave up before it could take it. -/
  | drop (who : ι)
  | cancel (who : ι)
  | close
  deriving DecidableEq, Repr

/-- The actions with which a caller gives its server back. -/
def Action.Ends {ι : Type} (who : ι) (action : Action ι) : Prop :=
  action = .closeLease who ∨ action = .drop who

variable {ι : Type} [DecidableEq ι]

def step (pool : Pool ι) : Action ι → Pool ι
  | .acquire who => pool.acquire who
  | .closeLease who => pool.closeLease who
  | .drop who => pool.drop who
  | .cancel who => pool.cancel who
  | .close => pool.close

def run (pool : Pool ι) (actions : List (Action ι)) : Pool ι :=
  actions.foldl step pool

theorem run_append (pool : Pool ι) (actions more : List (Action ι)) :
    pool.run (actions ++ more) = (pool.run actions).run more :=
  List.foldl_append

theorem run_concat (pool : Pool ι) (actions : List (Action ι)) (action : Action ι) :
    pool.run (actions ++ [action]) = (pool.run actions).step action := by
  rw [run_append]
  rfl

/-- A new caller gets a claim, and nobody else's claim changes. -/
theorem claims_acquire {pool : Pool ι} {who : ι} (fresh : pool.claims.get? who = none) :
    ∃ claim, (pool.acquire who).claims = pool.claims.enter who claim := by
  cases found : pool.slots[pool.choice]? <;>
    simp only [acquire, fresh, found] <;>
    exact ⟨_, rfl⟩

/-- What an action does to a pool: nothing, or one of a few changes. -/
inductive Effect (pool : Pool ι) : Action ι → Pool ι → Prop where
  | nothing {action : Action ι} (other : action ≠ .close) : Effect pool action pool
  | asked {who : ι} {after : Pool ι} (fresh : pool.claims.get? who = none)
      (admission : pool.Admission who after) : Effect pool (.acquire who) after
  /-- A pool without servers gives a lease of none. -/
  | pretended {who : ι} (fresh : pool.claims.get? who = none) (empty : pool.size = 0) :
      Effect pool (.acquire who) { pool with claims := pool.claims.enter who .placeholder }
  | closed {who : ι} {index : Nat} (held : pool.claims.get? who = some (.leased index true)) :
      Effect pool (.closeLease who) (pool.giveBack who index (.leased index false))
  | dropped {who : ι} {index : Nat} (held : pool.claims.get? who = some (.leased index true)) :
      Effect pool (.drop who) (pool.giveBack who index .dropped)
  | discarded {who : ι} (spare : (∃ index, pool.claims.get? who = some (.leased index false)) ∨
      pool.claims.get? who = some .placeholder) :
      Effect pool (.drop who) (pool.setClaim who .dropped)
  | left {who : ι} {index : Nat} {slot : Slot ι}
      (waiting : pool.claims.get? who = some (.waiting index))
      (found : pool.slots[index]? = some slot) :
      Effect pool (.cancel who)
        { pool.setSemaphore index (slot.semaphore.withdraw who) with
          claims := pool.claims.set who .cancelled }
  | shut : Effect pool .close pool.close

theorem Consistent.effect {pool : Pool ι} (consistent : pool.Consistent) (action : Action ι) :
    pool.Effect action (pool.step action) := by
  cases action with
  | acquire who =>
      change pool.Effect _ (pool.acquire who)
      cases fresh : pool.claims.get? who with
      | some claim =>
          rw [acquire_of_known fresh]
          exact .nothing nofun
      | none =>
          rcases Nat.eq_zero_or_pos pool.size with empty | some
          · rw [acquire_of_empty fresh empty]
            exact .pretended fresh empty
          · exact .asked fresh (consistent.acquire_admission some fresh)
  | closeLease who =>
      change pool.Effect _ (pool.closeLease who)
      by_cases held : ∃ index, pool.claims.get? who = some (.leased index true)
      · obtain ⟨index, held⟩ := held
        rw [closeLease_of_leased held]
        exact .closed held
      · rw [closeLease_of_not_leased (not_exists.mp held)]
        exact .nothing nofun
  | drop who =>
      change pool.Effect _ (pool.drop who)
      by_cases held : ∃ index, pool.claims.get? who = some (.leased index true)
      · obtain ⟨index, held⟩ := held
        rw [drop_of_leased held]
        exact .dropped held
      · rcases drop_of_not_leased (not_exists.mp held) with same | ⟨spare, same⟩ <;> rw [same]
        · exact .nothing nofun
        · exact .discarded spare
  | cancel who =>
      change pool.Effect _ (pool.cancel who)
      by_cases waiting : ∃ index, pool.claims.get? who = some (.waiting index)
      · obtain ⟨index, waiting⟩ := waiting
        obtain ⟨slot, found⟩ := exists_slot (consistent.placed waiting rfl)
        rw [cancel_of_waiting waiting found]
        exact .left waiting found
      · rw [cancel_of_not_waiting (not_exists.mp waiting)]
        exact .nothing nofun
  | close => exact .shut

theorem Consistent.of_effect {pool after : Pool ι} {action : Action ι}
    (consistent : pool.Consistent) (effect : pool.Effect action after) : after.Consistent := by
  cases effect with
  | nothing => exact consistent
  | asked fresh admission => exact consistent.admit fresh admission
  | pretended fresh empty => exact consistent.pretend fresh empty
  | closed held =>
      refine consistent.giveBack held rfl ?_
      intro index about
      cases about
      rfl
  | dropped held =>
      refine consistent.giveBack held rfl ?_
      intro index about
      cases about
  | discarded spare =>
      rcases spare with ⟨index, known⟩ | known
      · exact consistent.setClaim known rfl rfl rfl
      · exact consistent.setClaim known rfl rfl rfl
  | left waiting found => exact consistent.withdraw waiting found
  | shut => exact consistent.close

theorem Consistent.step {pool : Pool ι} (consistent : pool.Consistent) (action : Action ι) :
    (pool.step action).Consistent :=
  consistent.of_effect (consistent.effect action)

theorem Consistent.run {pool : Pool ι} (consistent : pool.Consistent) (actions : List (Action ι)) :
    (pool.run actions).Consistent := by
  induction actions generalizing pool with
  | nil => exact consistent
  | cons action actions ih => exact ih (consistent.step action)

/-! ## One claim -/

/-- What an action makes of the claim of one caller. -/
inductive Moves (pool : Pool ι) (who : ι) :
    Action ι → Option PoolClaim → Option PoolClaim → Prop where
  | stays {action : Action ι} {claim : Option PoolClaim} : Moves pool who action claim claim
  | refused (closed : pool.isClosed = true) :
      Moves pool who (.acquire who) none (some .interrupted)
  | granted {index : Nat} (opened : pool.isClosed = false) :
      Moves pool who (.acquire who) none (some (.leased index true))
  | queued (opened : pool.isClosed = false) :
      Moves pool who (.acquire who) none (some (.waiting pool.start))
  | pretended (empty : pool.size = 0) :
      Moves pool who (.acquire who) none (some .placeholder)
  | served {holder : ι} {index : Nat} {action : Action ι} (ends : action.Ends holder)
      (first : (pool.line index).head? = some who) :
      Moves pool who action (some (.waiting index)) (some (.leased index true))
  | closed {index : Nat} :
      Moves pool who (.closeLease who) (some (.leased index true)) (some (.leased index false))
  | dropped {index : Nat} {isOpen : Bool} :
      Moves pool who (.drop who) (some (.leased index isOpen)) (some .dropped)
  | discarded : Moves pool who (.drop who) (some .placeholder) (some .dropped)
  | left {index : Nat} : Moves pool who (.cancel who) (some (.waiting index)) (some .cancelled)
  | sentAway {index : Nat} : Moves pool who .close (some (.waiting index)) (some .interrupted)

theorem moves_admission {pool after : Pool ι} {caller : ι}
    (fresh : pool.claims.get? caller = none) (admission : pool.Admission caller after) (who : ι) :
    pool.Moves who (.acquire caller) (pool.claims.get? who) (after.claims.get? who) := by
  by_cases same : who = caller
  · subst same
    rw [fresh]
    cases admission with
    | refused closed found =>
        simp only [answer, Claims.get?_enter fresh, if_pos]
        exact .refused closed
    | granted opened found free =>
        simp only [answer, Claims.get?_enter fresh, if_pos]
        exact .granted opened
    | queued opened found busy =>
        simp only [answer, Claims.get?_enter fresh, if_pos]
        exact .queued opened
  · cases admission <;>
      simp only [answer, Claims.get?_enter fresh, if_neg same] <;>
      exact .stays

theorem moves_close (pool : Pool ι) (who : ι) :
    pool.Moves who .close (pool.claims.get? who) (pool.close.claims.get? who) := by
  simp only [Pool.close, Claims.get?_mapStates]
  cases pool.claims.get? who with
  | none => exact .stays
  | some claim =>
      cases claim with
      | waiting index => exact .sentAway
      | leased index isOpen => exact .stays
      | placeholder => exact .stays
      | dropped => exact .stays
      | cancelled => exact .stays
      | interrupted => exact .stays

namespace Consistent

variable {pool : Pool ι}

/-- A lease that ends serves the first in line, and changes no other claim. -/
theorem get?_giveBack (consistent : pool.Consistent) {who other : ι} {index : Nat}
    {claim : PoolClaim} (held : pool.claims.get? who = some (.leased index true)) :
    (pool.giveBack who index claim).claims.get? other =
      if other = who then some claim
      else if (pool.line index).head? = some other then some (.leased index true)
      else pool.claims.get? other := by
  obtain ⟨slot, found⟩ := exists_slot (consistent.placed held rfl)
  cases waits : pool.line index with
  | nil =>
      simp only [consistent.giveBack_of_nil found waits, Claims.get?_set, held]
      split <;> simp
  | cons first rest =>
      have waiting := consistent.mem_line.mp (waits ▸ List.mem_cons_self)
      have different : first ≠ who := by
        rintro rfl
        rw [held] at waiting
        cases waiting
      simp only [consistent.giveBack_of_cons found waits, Claims.get?_set, held, waiting,
        List.head?_cons]
      grind

theorem moves_giveBack (consistent : pool.Consistent) {caller : ι} {index : Nat}
    {claim : PoolClaim} {action : Action ι} (ends : action.Ends caller)
    (held : pool.claims.get? caller = some (.leased index true))
    (own : pool.Moves caller action (some (.leased index true)) (some claim)) (who : ι) :
    pool.Moves who action (pool.claims.get? who)
      ((pool.giveBack caller index claim).claims.get? who) := by
  rw [consistent.get?_giveBack held]
  split
  · rename_i same
    subst same
    rw [held]
    exact own
  · split
    · rename_i first
      rw [consistent.mem_line.mp (List.mem_of_mem_head? first)]
      exact .served ends first
    · exact .stays

/-- Every claim moves along its life, if at all. -/
theorem moves (consistent : pool.Consistent) (action : Action ι) (who : ι) :
    pool.Moves who action (pool.claims.get? who) ((pool.step action).claims.get? who) := by
  have effect := consistent.effect action
  generalize pool.step action = after at effect
  cases effect with
  | nothing other => exact .stays
  | asked fresh admission => exact moves_admission fresh admission who
  | pretended fresh empty =>
      rw [Claims.get?_enter fresh]
      split
      · rename_i same
        subst same
        exact fresh ▸ .pretended empty
      · exact .stays
  | closed held => exact consistent.moves_giveBack (.inl rfl) held .closed who
  | dropped held => exact consistent.moves_giveBack (.inr rfl) held .dropped who
  | discarded spare =>
      simp only [Pool.setClaim, Claims.get?_set]
      split
      · rename_i same
        subst same
        obtain ⟨index, spare⟩ | spare := spare <;> rw [spare]
        · exact .dropped
        · exact .discarded
      · exact .stays
  | left waiting found =>
      rw [Claims.get?_set]
      split
      · rename_i same
        subst same
        exact waiting ▸ .left
      · exact .stays
  | shut => exact moves_close pool who

/-! ## The pool as a whole -/

theorem closures_giveBack (consistent : pool.Consistent) {who : ι} {index : Nat}
    {claim : PoolClaim} (held : pool.claims.get? who = some (.leased index true)) :
    (pool.giveBack who index claim).closures = pool.closures := by
  obtain ⟨slot, found⟩ := exists_slot (consistent.placed held rfl)
  cases waits : pool.line index with
  | nil =>
      rw [consistent.giveBack_of_nil found waits]
      exact closures_setSemaphore found rfl
  | cons first rest =>
      rw [consistent.giveBack_of_cons found waits]
      exact closures_setSemaphore found rfl

theorem names_giveBack (consistent : pool.Consistent) {who : ι} {index : Nat}
    {claim : PoolClaim} (held : pool.claims.get? who = some (.leased index true)) :
    (pool.giveBack who index claim).claims.names = pool.claims.names := by
  obtain ⟨slot, found⟩ := exists_slot (consistent.placed held rfl)
  cases waits : pool.line index with
  | nil => simp [consistent.giveBack_of_nil found waits]
  | cons first rest => simp [consistent.giveBack_of_cons found waits]

/-- Only the owner of a pool closes it. -/
theorem closures_step (consistent : pool.Consistent) {action : Action ι} (other : action ≠ .close) :
    (pool.step action).closures = pool.closures := by
  have effect := consistent.effect action
  generalize pool.step action = after at effect
  cases effect with
  | nothing => rfl
  | asked fresh admission =>
      cases admission with
      | refused closed found => exact closures_setSemaphore found rfl
      | granted opened found free => exact closures_setSemaphore found rfl
      | queued opened found busy => exact closures_setSemaphore found rfl
  | pretended fresh empty => rfl
  | closed held => exact consistent.closures_giveBack held
  | dropped held => exact consistent.closures_giveBack held
  | discarded spare => rfl
  | left waiting found => exact closures_setSemaphore found rfl
  | shut => exact absurd rfl other

theorem size_step (consistent : pool.Consistent) (action : Action ι) :
    (pool.step action).size = pool.size := by
  by_cases closing : action = .close
  · subst closing
    exact List.length_map _
  · rw [← length_closures, consistent.closures_step closing, length_closures]

theorem isClosed_step (consistent : pool.Consistent) (some : 0 < pool.size) (action : Action ι) :
    (pool.step action).isClosed = true ↔ pool.isClosed = true ∨ action = .close := by
  by_cases closing : action = .close
  · subst closing
    obtain ⟨slot, found⟩ := exists_slot some
    refine iff_of_true (isClosed_eq_true_iff.mpr
      ⟨0, { slot with semaphore := slot.semaphore.close }, ?_, rfl⟩) (.inr rfl)
    simp [Pool.step, Pool.close, found]
  · rw [← any_closures, consistent.closures_step closing, any_closures]
    simp [closing]

/-- Callers are listed as they come, and stay where they are listed. -/
theorem names_step (consistent : pool.Consistent) (action : Action ι) :
    pool.claims.names <+: (pool.step action).claims.names := by
  have effect := consistent.effect action
  generalize pool.step action = after at effect
  cases effect with
  | nothing => exact List.prefix_rfl
  | asked fresh admission => cases admission <;> simp [answer]
  | pretended fresh empty => simp
  | closed held => simp [consistent.names_giveBack held]
  | dropped held => simp [consistent.names_giveBack held]
  | discarded spare => simp [Pool.setClaim]
  | left waiting found => simp
  | shut => simp [Pool.close]

end Consistent

end Turnstile.Pool
