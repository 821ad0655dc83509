import Turnstile.Proofs.Gate
import Turnstile.Proofs.Pool.Moves

/-!
# How callers stand

A gate and a pool tell their callers the same few things: to wait, to go ahead, or
to go away.  What a caller is told changes by its own doing, except that one who
waits may be told to go ahead or to go away.
-/

namespace Turnstile

/-- How a caller stands at a gate or at a pool. -/
inductive Standing where
  /-- Has not come. -/
  | absent
  | waiting
  | holding
  /-- Has been sent away. -/
  | refused
  /-- Has left, or has given back what it held. -/
  | gone
  deriving DecidableEq, Repr

namespace Standing

/-- What may become of a caller that does nothing. -/
inductive Advances : Standing → Standing → Prop where
  | stays {standing : Standing} : Advances standing standing
  | served : Advances .waiting .holding
  | sentAway : Advances .waiting .refused

theorem Advances.trans {first second third : Standing} (one : Advances first second)
    (other : Advances second third) : Advances first third := by
  cases one with
  | stays => exact other
  | served =>
      cases other
      exact .served
  | sentAway =>
      cases other
      exact .sentAway

theorem Advances.absent {standing : Standing} (advances : Advances .absent standing) :
    standing = .absent := by
  cases advances
  rfl

/-- Neither waits nor holds anything. -/
def IsOut (standing : Standing) : Prop :=
  standing ≠ .waiting ∧ standing ≠ .holding

end Standing

def GateClaim.standing : GateClaim → Standing
  | .waiting => .waiting
  | .held => .holding
  | .released => .gone
  | .cancelled => .gone
  | .interrupted => .refused

def PoolClaim.standing : PoolClaim → Standing
  | .waiting _ => .waiting
  | .leased _ true => .holding
  | .leased _ false => .gone
  | .placeholder => .gone
  | .dropped => .gone
  | .cancelled => .gone
  | .interrupted => .refused

variable {ι : Type} [DecidableEq ι]

/-! ## Gates -/

namespace Gate

def standing (gate : Gate ι) (who : ι) : Standing :=
  (gate.claims.get? who).elim .absent GateClaim.standing

variable {gate : Gate ι} {who other : ι}

theorem standing_eq_absent_iff : gate.standing who = .absent ↔ gate.claims.get? who = none := by
  unfold standing
  cases gate.claims.get? who with
  | none => simp
  | some claim => cases claim <;> simp [GateClaim.standing]

theorem standing_eq_holding_iff :
    gate.standing who = .holding ↔ gate.claims.get? who = some .held := by
  unfold standing
  cases gate.claims.get? who with
  | none => simp
  | some claim => cases claim <;> simp [GateClaim.standing]

theorem standing_acquire (fresh : gate.standing who = .absent) :
    ((gate.acquire who).standing who = .waiting ∨ (gate.acquire who).standing who = .holding ∨
      (gate.acquire who).standing who = .refused) ∧
      ∀ other, other ≠ who → (gate.acquire who).standing other = gate.standing other := by
  have fresh := standing_eq_absent_iff.mp fresh
  obtain ⟨claim, told, entered⟩ := get?_acquire fresh
  simp only [standing, entered, Claims.get?_enter fresh]
  refine ⟨?_, fun other different => by rw [if_neg different]⟩
  rcases told with rfl | rfl | rfl <;> simp [GateClaim.standing]

/-- A permit given back goes to the first in line, and no other claim changes. -/
theorem get?_release (consistent : gate.Consistent) (held : gate.claims.get? who = some .held) :
    (gate.release who).claims.get? other =
      if other = who then some .released
      else if gate.line.head? = some other then some .held
      else gate.claims.get? other := by
  cases waits : gate.line with
  | nil =>
      simp only [consistent.release_of_nil held waits, Claims.get?_set, held]
      split <;> simp
  | cons first rest =>
      obtain ⟨waiting, different⟩ := consistent.first_in_line held waits
      simp only [consistent.release_of_cons held waits, Claims.get?_set, held, waiting,
        List.head?_cons]
      grind

theorem standing_release (consistent : gate.Consistent) (who : ι) :
    ((gate.release who).standing who =
      if gate.standing who = .holding then .gone else gate.standing who) ∧
      ∀ other, other ≠ who →
        (gate.standing other).Advances ((gate.release who).standing other) := by
  by_cases held : gate.claims.get? who = some .held
  · rw [if_pos (standing_eq_holding_iff.mpr held)]
    simp only [standing, get?_release consistent held]
    refine ⟨by simp [GateClaim.standing], ?_⟩
    intro other different
    rw [if_neg different]
    split
    · rename_i first
      rw [consistent.mem_line.mp (List.mem_of_mem_head? first)]
      exact .served
    · exact .stays
  · rw [if_neg (mt standing_eq_holding_iff.mp held), release_of_not_held held]
    exact ⟨rfl, fun _ _ => .stays⟩

theorem standing_cancel (gate : Gate ι) (who : ι) :
    (gate.cancel who).standing who ≠ .waiting ∧
      ∀ other, other ≠ who → (gate.cancel who).standing other = gate.standing other := by
  by_cases waiting : gate.claims.get? who = some .waiting
  · simp only [standing, cancel_of_waiting waiting, Claims.get?_set, waiting]
    exact ⟨by simp [GateClaim.standing], fun other different => by rw [if_neg different]⟩
  · rw [cancel_of_not_waiting waiting]
    refine ⟨fun waits => waiting ?_, fun _ _ => rfl⟩
    unfold standing at waits
    cases known : gate.claims.get? who with
    | none => simp [known] at waits
    | some claim => cases claim <;> simp_all [GateClaim.standing]

/-- Who leaves is out, and those who wait may be let in. -/
theorem standing_leave (consistent : gate.Consistent) (who : ι) :
    ((gate.leave who).standing who).IsOut ∧
      ∀ other, other ≠ who → (gate.standing other).Advances ((gate.leave who).standing other) := by
  obtain ⟨left, same⟩ := standing_cancel gate who
  obtain ⟨returned, others⟩ := standing_release (consistent.cancel who) who
  refine ⟨?_, fun other different => same other different ▸ others other different⟩
  rw [leave, returned]
  split
  · exact ⟨nofun, nofun⟩
  · rename_i idle
    exact ⟨left, idle⟩

theorem leave_of_absent (absent : gate.standing who = .absent) : gate.leave who = gate := by
  have fresh := standing_eq_absent_iff.mp absent
  simp [leave, cancel, release, fresh]

theorem standing_close (gate : Gate ι) (who : ι) :
    (gate.standing who).Advances (gate.close.standing who) := by
  simp only [standing, close, Claims.get?_mapStates]
  cases gate.claims.get? who with
  | none => exact .stays
  | some claim =>
      cases claim with
      | waiting => exact .sentAway
      | held => exact .stays
      | released => exact .stays
      | cancelled => exact .stays
      | interrupted => exact .stays

end Gate

/-! ## Pools -/

namespace Pool

def standing (pool : Pool ι) (who : ι) : Standing :=
  (pool.claims.get? who).elim .absent PoolClaim.standing

variable {pool : Pool ι} {who other : ι}

theorem standing_eq_absent_iff : pool.standing who = .absent ↔ pool.claims.get? who = none := by
  unfold standing
  cases pool.claims.get? who with
  | none => simp
  | some claim => cases claim <;> simp [PoolClaim.standing]; split <;> simp

theorem standing_eq_holding_iff :
    pool.standing who = .holding ↔ ∃ slot, pool.claims.get? who = some (.leased slot true) := by
  unfold standing
  cases pool.claims.get? who with
  | none => simp
  | some claim =>
      cases claim with
      | leased slot isOpen => cases isOpen <;> simp [PoolClaim.standing]
      | _ => simp [PoolClaim.standing]

omit [DecidableEq ι] in
/-- A claim moves on by itself only as far as one who waits is served or sent away. -/
theorem Moves.advances {action : Action ι} {claim after : Option PoolClaim}
    (moves : pool.Moves who action claim after) (other : action ≠ .acquire who)
    (kept : ¬ action.Ends who) (waits : action ≠ .cancel who) :
    (claim.elim Standing.absent PoolClaim.standing).Advances
      (after.elim Standing.absent PoolClaim.standing) := by
  cases moves with
  | stays => exact .stays
  | refused => exact absurd rfl other
  | granted => exact absurd rfl other
  | queued => exact absurd rfl other
  | pretended => exact absurd rfl other
  | served => exact .served
  | closed => exact absurd (.inl rfl) kept
  | dropped => exact absurd (.inr rfl) kept
  | discarded => exact absurd (.inr rfl) kept
  | left => exact absurd rfl waits
  | sentAway => exact .sentAway

/-- What one caller does lets others go ahead or sends them away, and does no more to them. -/
theorem standing_step (consistent : pool.Consistent) (action : Action ι)
    (acquires : action ≠ .acquire who) (kept : ¬ action.Ends who) (waits : action ≠ .cancel who) :
    (pool.standing who).Advances ((pool.step action).standing who) :=
  (consistent.moves action who).advances acquires kept waits

/-- Nobody else is told anything when a caller asks. -/
theorem standing_acquire_of_ne (different : other ≠ who) :
    (pool.acquire who).standing other = pool.standing other := by
  cases fresh : pool.claims.get? who with
  | some claim => rw [acquire_of_known fresh]
  | none =>
      obtain ⟨claim, entered⟩ := claims_acquire fresh
      rw [standing, standing, entered, Claims.get?_enter fresh, if_neg different]

theorem standing_acquire (consistent : pool.Consistent) (some : 0 < pool.size)
    (fresh : pool.standing who = .absent) :
    (pool.acquire who).standing who = .waiting ∨ (pool.acquire who).standing who = .holding ∨
      (pool.acquire who).standing who = .refused := by
  have fresh := standing_eq_absent_iff.mp fresh
  have moves := consistent.moves (.acquire who) who
  have known : (pool.acquire who).claims.get? who ≠ none := by
    obtain ⟨claim, entered⟩ := claims_acquire fresh
    simp [entered, Claims.get?_enter fresh]
  rw [fresh] at moves
  change pool.Moves who _ none ((pool.acquire who).claims.get? who) at moves
  unfold standing
  generalize (pool.acquire who).claims.get? who = after at moves known
  cases moves with
  | stays => exact absurd rfl known
  | refused => exact .inr (.inr rfl)
  | granted => exact .inr (.inl rfl)
  | queued => exact .inl rfl
  | pretended empty => omega

theorem standing_cancel_self (pool : Pool ι) (who : ι) :
    (pool.cancel who).standing who ≠ .waiting := by
  by_cases waiting : ∃ index, pool.claims.get? who = some (.waiting index)
  · obtain ⟨index, waiting⟩ := waiting
    simp [standing, cancel, waiting, Claims.get?_set, PoolClaim.standing]
  · rw [cancel_of_not_waiting (not_exists.mp waiting)]
    unfold standing
    cases known : pool.claims.get? who with
    | none => simp
    | some claim =>
        cases claim with
        | waiting index => exact absurd ⟨index, known⟩ waiting
        | leased index isOpen => cases isOpen <;> simp [PoolClaim.standing]
        | _ => simp [PoolClaim.standing]

theorem standing_drop_self (consistent : pool.Consistent) (idle : pool.standing who ≠ .waiting) :
    ((pool.drop who).standing who).IsOut := by
  by_cases held : ∃ index, pool.claims.get? who = some (.leased index true)
  · obtain ⟨index, held⟩ := held
    rw [drop_of_leased held, standing, consistent.get?_giveBack held, if_pos rfl]
    exact ⟨nofun, nofun⟩
  · rcases drop_of_not_leased (not_exists.mp held) with same | ⟨spare, same⟩
    · rw [same]
      exact ⟨idle, mt standing_eq_holding_iff.mp held⟩
    · rw [same]
      rcases spare with ⟨index, spare⟩ | spare <;>
        simp [standing, setClaim, Claims.get?_set, spare, PoolClaim.standing, Standing.IsOut]

/-- Who leaves is out, and those who wait may be let in. -/
theorem standing_leave (consistent : pool.Consistent) (who : ι) :
    ((pool.leave who).standing who).IsOut ∧
      ∀ other, other ≠ who → (pool.standing other).Advances ((pool.leave who).standing other) := by
  refine ⟨standing_drop_self (consistent.step (.cancel who)) (standing_cancel_self pool who), ?_⟩
  intro other different
  have apart {action : Action ι} (ends : action.Ends other) : action ≠ .cancel who ∧
      action ≠ .drop who := by
    rcases ends with rfl | rfl
    · exact ⟨nofun, nofun⟩
    · exact ⟨nofun, fun same => different (Action.drop.inj same)⟩
  have left : (pool.standing other).Advances ((pool.cancel who).standing other) :=
    standing_step consistent (.cancel who) nofun (fun ends => (apart ends).1 rfl)
      (fun same => different (Action.cancel.inj same).symm)
  exact left.trans (standing_step (consistent.step (.cancel who)) (.drop who) nofun
    (fun ends => (apart ends).2 rfl) nofun)

theorem leave_of_absent (absent : pool.standing who = .absent) : pool.leave who = pool := by
  have fresh := standing_eq_absent_iff.mp absent
  simp [leave, cancel, drop, fresh]

theorem standing_closeLease (consistent : pool.Consistent) (different : other ≠ who) :
    (pool.standing other).Advances ((pool.closeLease who).standing other) := by
  refine standing_step consistent (.closeLease who) nofun ?_ nofun
  rintro (same | same)
  · exact different (Action.closeLease.inj same).symm
  · cases same

theorem standing_close (consistent : pool.Consistent) :
    (pool.standing who).Advances (pool.close.standing who) :=
  standing_step consistent .close nofun (fun ends => by cases ends <;> contradiction) nofun

end Pool

end Turnstile
