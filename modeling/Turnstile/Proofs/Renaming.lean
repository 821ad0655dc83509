import Mathlib.Data.List.Basic
import Turnstile.Proofs.Gate.Moves
import Turnstile.Proofs.Pool.Moves

/-!
# Renaming callers

A gate and a pool tell their callers apart, and regard nothing else about their
names.  Giving the callers other names, different ones to different callers,
commutes with everything that callers and owners do.
-/

namespace Turnstile

variable {ι κ α : Type} {rename other : ι → κ}

/-! ## Claims and semaphores -/

namespace Claims

/-- The claims with every caller renamed. -/
def renamed (rename : ι → κ) (claims : Claims ι α) : Claims κ α :=
  claims.map fun claim => (rename claim.1, claim.2)

theorem renamed_congr {claims : Claims ι α} (same : ∀ who ∈ claims.names, rename who = other who) :
    claims.renamed rename = claims.renamed other := by
  refine List.map_congr_left fun claim member => ?_
  rw [same claim.1 (List.mem_map_of_mem member)]

theorem renamed_enter (claims : Claims ι α) (who : ι) (state : α) :
    (claims.enter who state).renamed rename = (claims.renamed rename).enter (rename who) state := by
  simp [renamed, enter]

theorem renamed_mapStates (claims : Claims ι α) (change : α → α) :
    (claims.mapStates change).renamed rename = (claims.renamed rename).mapStates change := by
  simp [renamed, mapStates]

variable [DecidableEq ι] [DecidableEq κ] (injective : rename.Injective)

include injective

theorem get?_renamed (claims : Claims ι α) (who : ι) :
    (claims.renamed rename).get? (rename who) = claims.get? who := by
  induction claims with
  | nil => rfl
  | cons claim rest ih =>
      simp only [renamed, List.map_cons, get?_cons, injective.eq_iff] at ih ⊢
      rw [ih]

theorem renamed_set (claims : Claims ι α) (who : ι) (state : α) :
    (claims.set who state).renamed rename = (claims.renamed rename).set (rename who) state := by
  simp only [renamed, set, List.map_map]
  refine List.map_congr_left fun claim _ => ?_
  simp only [Function.comp_apply, injective.eq_iff]
  split <;> rfl

end Claims

namespace Semaphore

/-- The semaphore with everyone in line renamed. -/
def renamed (rename : ι → κ) (semaphore : Semaphore ι) : Semaphore κ where
  free := semaphore.free
  queue := semaphore.queue.map rename
  isClosed := semaphore.isClosed

theorem renamed_congr {semaphore : Semaphore ι}
    (same : ∀ who ∈ semaphore.queue, rename who = other who) :
    semaphore.renamed rename = semaphore.renamed other := by
  simp [renamed, List.map_congr_left same]

theorem acquire_renamed (semaphore : Semaphore ι) (who : ι) :
    (semaphore.renamed rename).acquire (rename who) =
      ((semaphore.acquire who).1, (semaphore.acquire who).2.renamed rename) := by
  by_cases closed : semaphore.isClosed = true
  · simp [acquire, renamed, closed]
  · by_cases free : 0 < semaphore.free
    · simp [acquire, renamed, closed, free]
    · simp [acquire, renamed, closed, free]

theorem release_renamed (semaphore : Semaphore ι) :
    (semaphore.renamed rename).release =
      (semaphore.release.1.map rename, semaphore.release.2.renamed rename) := by
  obtain ⟨free, queue, isClosed⟩ := semaphore
  cases queue <;> rfl

theorem renamed_close (semaphore : Semaphore ι) :
    semaphore.close.renamed rename = (semaphore.renamed rename).close :=
  rfl

theorem renamed_withdraw [DecidableEq ι] [DecidableEq κ] (injective : rename.Injective)
    (semaphore : Semaphore ι) (who : ι) :
    (semaphore.withdraw who).renamed rename =
      (semaphore.renamed rename).withdraw (rename who) := by
  simp [withdraw, renamed, List.map_erase injective]

end Semaphore

/-! ## Gates -/

namespace Gate

/-- The gate with every caller renamed. -/
def renamed (rename : ι → κ) (gate : Gate ι) : Gate κ where
  category := gate.category
  limits := gate.limits
  semaphore := gate.semaphore.renamed rename
  claims := gate.claims.renamed rename

theorem renamed_close (gate : Gate ι) :
    gate.close.renamed rename = (gate.renamed rename).close := by
  simp only [renamed, close, Semaphore.renamed_close, Claims.renamed_mapStates]

variable [DecidableEq ι] [DecidableEq κ] (injective : rename.Injective)

include injective

theorem renamed_handOver (first : Option ι) (claims : Claims ι GateClaim) :
    (handOver first claims).renamed rename =
      handOver (first.map rename) (claims.renamed rename) := by
  cases first with
  | none => rfl
  | some who => exact Claims.renamed_set injective claims who .held

variable (gate : Gate ι) (who : ι)

theorem renamed_acquire :
    (gate.acquire who).renamed rename = (gate.renamed rename).acquire (rename who) := by
  simp only [acquire, renamed, Claims.get?_renamed injective]
  cases gate.claims.get? who with
  | some claim => rfl
  | none => simp only [Semaphore.acquire_renamed, Claims.renamed_enter]

theorem renamed_release :
    (gate.release who).renamed rename = (gate.renamed rename).release (rename who) := by
  simp only [release, renamed, Claims.get?_renamed injective]
  split
  · simp only [Semaphore.release_renamed, renamed_handOver injective,
      Claims.renamed_set injective]
  · rfl

theorem renamed_cancel :
    (gate.cancel who).renamed rename = (gate.renamed rename).cancel (rename who) := by
  simp only [cancel, renamed, Claims.get?_renamed injective]
  split
  · simp only [Semaphore.renamed_withdraw injective, Claims.renamed_set injective]
  · rfl

omit injective [DecidableEq ι] [DecidableEq κ] in
theorem Consistent.renamed_congr {gate : Gate ι} (consistent : gate.Consistent)
    (same : ∀ who ∈ gate.claims.names, rename who = other who) :
    gate.renamed rename = gate.renamed other := by
  have line : ∀ who ∈ gate.semaphore.queue, rename who = other who := by
    rw [consistent.serves.queue_eq]
    exact fun who waits => same who ((Claims.having_sublist _ _).subset waits)
  simp only [renamed, Claims.renamed_congr same, Semaphore.renamed_congr line]

/-- The action of the caller under its other name. -/
def Action.renamed (rename : ι → κ) : Action ι → Action κ
  | .acquire who => .acquire (rename who)
  | .release who => .release (rename who)
  | .cancel who => .cancel (rename who)
  | .close => .close

theorem renamed_step (action : Action ι) :
    (gate.step action).renamed rename = (gate.renamed rename).step (action.renamed rename) := by
  cases action with
  | acquire who => exact renamed_acquire injective gate who
  | release who => exact renamed_release injective gate who
  | cancel who => exact renamed_cancel injective gate who
  | close => exact renamed_close gate

/-- Callers under other names bring a gate to the same state under these names. -/
theorem renamed_run (actions : List (Action ι)) :
    (gate.run actions).renamed rename =
      (gate.renamed rename).run (actions.map (Action.renamed rename)) := by
  induction actions generalizing gate with
  | nil => rfl
  | cons action actions ih =>
      change ((gate.step action).run actions).renamed rename = _
      rw [ih, renamed_step injective]
      rfl

end Gate

/-! ## Pools -/

/-- The slot with everyone in line renamed. -/
def Slot.renamed (rename : ι → κ) (slot : Slot ι) : Slot κ where
  endpoint := slot.endpoint
  semaphore := slot.semaphore.renamed rename

theorem Slot.renamed_modify (slots : List (Slot ι)) (index : Nat)
    (change : Semaphore ι → Semaphore ι) (after : Semaphore κ → Semaphore κ)
    (same : ∀ semaphore, (change semaphore).renamed rename = after (semaphore.renamed rename)) :
    (slots.modify index fun slot => { slot with semaphore := change slot.semaphore }).map
        (Slot.renamed rename) =
      (slots.map (Slot.renamed rename)).modify index
        fun slot => { slot with semaphore := after slot.semaphore } := by
  refine List.ext_getElem? fun place => ?_
  simp only [List.getElem?_map, List.getElem?_modify]
  cases slots[place]? with
  | none => rfl
  | some slot =>
      simp only [Option.map_eq_map, Option.map_some]
      split
      · simp only [Slot.renamed, same]
      · rfl

namespace Pool

/-- The pool with every caller renamed. -/
def renamed (rename : ι → κ) (pool : Pool ι) : Pool κ where
  slots := pool.slots.map (Slot.renamed rename)
  turn := pool.turn
  claims := pool.claims.renamed rename

theorem renamed_of (rename : ι → κ) (endpoints : List Endpoint) :
    (of endpoints).renamed rename = of endpoints := by
  simp only [renamed, of, List.map_map]
  rfl

theorem getElem?_renamed (pool : Pool ι) (index : Nat) :
    (pool.renamed rename).slots[index]? = (pool.slots[index]?).map (Slot.renamed rename) :=
  List.getElem?_map

/-- Where the next caller asks has nothing to do with names. -/
theorem choice_renamed (pool : Pool ι) : (pool.renamed rename).choice = pool.choice := by
  have start : (pool.renamed rename).start = pool.start := by simp [start, size, renamed]
  have order : (pool.renamed rename).order = pool.order := by
    rw [Pool.order, Pool.order, start]
    simp [size, renamed]
  have busy : (pool.renamed rename).isBusyAt = pool.isBusyAt := by
    funext index
    rw [isBusyAt, isBusyAt, getElem?_renamed]
    cases pool.slots[index]? <;> rfl
  rw [choice, choice, start, order, busy]

theorem renamed_setSemaphore (rename : ι → κ) (pool : Pool ι) (index : Nat)
    (semaphore : Semaphore ι) :
    (pool.setSemaphore index semaphore).renamed rename =
      (pool.renamed rename).setSemaphore index (semaphore.renamed rename) := by
  simp only [setSemaphore, renamed, Pool.mk.injEq, and_true]
  exact Slot.renamed_modify pool.slots index _ (fun _ => semaphore.renamed rename) fun _ => rfl

theorem renamed_close (pool : Pool ι) :
    pool.close.renamed rename = (pool.renamed rename).close := by
  simp only [renamed, close, Claims.renamed_mapStates, List.map_map]
  rfl

variable [DecidableEq ι] [DecidableEq κ] (injective : rename.Injective)

include injective

theorem renamed_handOver (index : Nat) (first : Option ι) (claims : Claims ι PoolClaim) :
    (handOver index first claims).renamed rename =
      handOver index (first.map rename) (claims.renamed rename) := by
  cases first with
  | none => rfl
  | some who => exact Claims.renamed_set injective claims who _

variable (pool : Pool ι) (who : ι)

theorem renamed_setClaim (claim : PoolClaim) :
    (pool.setClaim who claim).renamed rename =
      (pool.renamed rename).setClaim (rename who) claim := by
  simp only [setClaim, renamed, Claims.renamed_set injective]

theorem renamed_freeSlot (index : Nat) :
    (pool.freeSlot index).renamed rename = (pool.renamed rename).freeSlot index := by
  simp only [freeSlot, getElem?_renamed]
  cases pool.slots[index]? with
  | none => rfl
  | some slot =>
      have slots := congrArg Pool.slots
        (renamed_setSemaphore rename pool index slot.semaphore.release.2)
      simp only [Option.map_some, Slot.renamed, Semaphore.release_renamed, renamed] at slots ⊢
      rw [slots, renamed_handOver injective]
      rfl

theorem renamed_acquire :
    (pool.acquire who).renamed rename = (pool.renamed rename).acquire (rename who) := by
  have known : (pool.renamed rename).claims.get? (rename who) = pool.claims.get? who :=
    Claims.get?_renamed injective pool.claims who
  simp only [acquire, choice_renamed, getElem?_renamed, known]
  cases pool.claims.get? who with
  | some claim => rfl
  | none =>
      cases pool.slots[pool.choice]? with
      | none => simp only [renamed, Claims.renamed_enter, Option.map_none]
      | some slot =>
          have slots := congrArg Pool.slots
            (renamed_setSemaphore rename pool pool.choice (slot.semaphore.acquire who).2)
          simp only [Option.map_some, Slot.renamed, Semaphore.acquire_renamed, renamed] at slots ⊢
          rw [slots, Claims.renamed_enter]

theorem renamed_closeLease :
    (pool.closeLease who).renamed rename = (pool.renamed rename).closeLease (rename who) := by
  have known : (pool.renamed rename).claims.get? (rename who) = pool.claims.get? who :=
    Claims.get?_renamed injective pool.claims who
  simp only [closeLease, known]
  split
  · rw [renamed_freeSlot injective, renamed_setClaim injective]
  · rfl

theorem renamed_drop :
    (pool.drop who).renamed rename = (pool.renamed rename).drop (rename who) := by
  have known : (pool.renamed rename).claims.get? (rename who) = pool.claims.get? who :=
    Claims.get?_renamed injective pool.claims who
  simp only [drop, known]
  split
  · rw [renamed_freeSlot injective, renamed_setClaim injective]
  · exact renamed_setClaim injective pool who .dropped
  · exact renamed_setClaim injective pool who .dropped
  · rfl

theorem renamed_cancel :
    (pool.cancel who).renamed rename = (pool.renamed rename).cancel (rename who) := by
  have known : (pool.renamed rename).claims.get? (rename who) = pool.claims.get? who :=
    Claims.get?_renamed injective pool.claims who
  simp only [cancel, known]
  split
  · simp only [renamed, Claims.renamed_set injective, Pool.mk.injEq, and_true]
    exact Slot.renamed_modify pool.slots _ _ _ fun semaphore =>
      semaphore.renamed_withdraw injective who
  · rfl

omit injective [DecidableEq κ] in
theorem Consistent.renamed_congr {pool : Pool ι} (consistent : pool.Consistent)
    (same : ∀ who ∈ pool.claims.names, rename who = other who) :
    pool.renamed rename = pool.renamed other := by
  have slots : pool.slots.map (Slot.renamed rename) = pool.slots.map (Slot.renamed other) := by
    refine List.map_congr_left fun slot member => ?_
    obtain ⟨index, found⟩ := List.mem_iff_getElem?.mp member
    have line : ∀ who ∈ slot.semaphore.queue, rename who = other who := by
      rw [(consistent.serves found).queue_eq]
      exact fun who waits => same who ((Claims.having_sublist _ _).subset waits)
    simp only [Slot.renamed, Semaphore.renamed_congr line]
  simp only [renamed, Claims.renamed_congr same, slots]

/-- The action of the caller under its other name. -/
def Action.renamed (rename : ι → κ) : Action ι → Action κ
  | .acquire who => .acquire (rename who)
  | .closeLease who => .closeLease (rename who)
  | .drop who => .drop (rename who)
  | .cancel who => .cancel (rename who)
  | .close => .close

theorem renamed_step (action : Action ι) :
    (pool.step action).renamed rename = (pool.renamed rename).step (action.renamed rename) := by
  cases action with
  | acquire who => exact renamed_acquire injective pool who
  | closeLease who => exact renamed_closeLease injective pool who
  | drop who => exact renamed_drop injective pool who
  | cancel who => exact renamed_cancel injective pool who
  | close => exact renamed_close pool

/-- Callers under other names bring a pool to the same state under these names. -/
theorem renamed_run (actions : List (Action ι)) :
    (pool.run actions).renamed rename =
      (pool.renamed rename).run (actions.map (Action.renamed rename)) := by
  induction actions generalizing pool with
  | nil => rfl
  | cons action actions ih =>
      change ((pool.step action).run actions).renamed rename = _
      rw [ih, renamed_step injective]
      rfl

end Pool

end Turnstile
