import Turnstile.Gate
import Turnstile.Proofs.Claims
import Turnstile.Proofs.Semaphore

/-!
# The balance of a gate

At every moment the permits of a gate that are free and those that are held add
up to its capacity, and its line is made of the callers who wait, in order of
arrival.  Every operation is written out for each case in which it does
something, and keeps the balance.
-/

namespace Turnstile.Gate

variable {ι : Type}

/-- The callers who wait, in order of arrival. -/
def line (gate : Gate ι) : List ι :=
  gate.claims.having fun claim => claim = .waiting

/-- The callers who hold a permit. -/
def holders (gate : Gate ι) : List ι :=
  gate.claims.having fun claim => claim = .held

/-- The permits and the line of a gate are those of its claims. -/
structure Consistent (gate : Gate ι) : Prop where
  distinct : gate.claims.names.Nodup
  serves : gate.semaphore.Serves gate.capacity gate.line gate.holders.length

theorem Consistent.of (category : Category) (limits : Limits) :
    (Gate.of category limits : Gate ι).Consistent :=
  ⟨List.nodup_nil, .start _⟩

namespace Consistent

variable {gate : Gate ι}

/-- Permits that are free and permits that are held add up to the capacity. -/
theorem balance (consistent : gate.Consistent) :
    gate.available + gate.holders.length = gate.capacity :=
  consistent.serves.balance

variable [DecidableEq ι]

theorem mem_line (consistent : gate.Consistent) {who : ι} :
    who ∈ gate.line ↔ gate.claims.get? who = some .waiting := by
  simp [line, Claims.mem_having consistent.distinct]

theorem mem_holders (consistent : gate.Consistent) {who : ι} :
    who ∈ gate.holders ↔ gate.claims.get? who = some .held := by
  simp [holders, Claims.mem_having consistent.distinct]

end Consistent

variable [DecidableEq ι]

/-! ## Asking for a permit -/

theorem acquire_of_known {gate : Gate ι} {who : ι} {claim : GateClaim}
    (known : gate.claims.get? who = some claim) : gate.acquire who = gate := by
  simp [acquire, known]

theorem acquire_of_closed {gate : Gate ι} {who : ι} (fresh : gate.claims.get? who = none)
    (closed : gate.isClosed = true) :
    gate.acquire who = { gate with claims := gate.claims.enter who .interrupted } := by
  simp [acquire, fresh, Semaphore.acquire_of_closed who closed]

theorem acquire_of_free {gate : Gate ι} {who : ι} (fresh : gate.claims.get? who = none)
    (opened : gate.isClosed = false) (free : 0 < gate.available) :
    gate.acquire who =
      { gate with
        semaphore := { gate.semaphore with free := gate.semaphore.free - 1 }
        claims := gate.claims.enter who .held } := by
  simp [acquire, fresh, Semaphore.acquire_of_free who opened free]

theorem acquire_of_busy {gate : Gate ι} {who : ι} (fresh : gate.claims.get? who = none)
    (opened : gate.isClosed = false) (busy : gate.available = 0) :
    gate.acquire who =
      { gate with
        semaphore := { gate.semaphore with queue := gate.semaphore.queue ++ [who] }
        claims := gate.claims.enter who .waiting } := by
  simp [acquire, fresh, Semaphore.acquire_of_busy who opened busy]

/-- A new caller is let in, made to wait or sent away, and nothing else changes. -/
theorem get?_acquire {gate : Gate ι} {who : ι} (fresh : gate.claims.get? who = none) :
    ∃ claim, (claim = .held ∨ claim = .waiting ∨ claim = .interrupted) ∧
      (gate.acquire who).claims = gate.claims.enter who claim := by
  by_cases closed : gate.isClosed = true
  · exact ⟨.interrupted, by simp, by rw [acquire_of_closed fresh closed]⟩
  · rw [Bool.not_eq_true] at closed
    rcases Nat.eq_zero_or_pos gate.available with busy | free
    · exact ⟨.waiting, by simp, by rw [acquire_of_busy fresh closed busy]⟩
    · exact ⟨.held, by simp, by rw [acquire_of_free fresh closed free]⟩

theorem Consistent.acquire {gate : Gate ι} (consistent : gate.Consistent) (who : ι) :
    (gate.acquire who).Consistent := by
  cases fresh : gate.claims.get? who with
  | some claim =>
      rw [acquire_of_known fresh]
      exact consistent
  | none =>
      have distinct := Claims.nodup_names_enter consistent.distinct fresh
      by_cases closed : gate.isClosed = true
      · rw [acquire_of_closed fresh closed]
        refine ⟨distinct _, ?_⟩
        simpa [line, holders, capacity] using consistent.serves
      · rw [Bool.not_eq_true] at closed
        rcases Nat.eq_zero_or_pos gate.available with busy | free
        · rw [acquire_of_busy fresh closed busy]
          refine ⟨distinct _, ?_⟩
          simpa [line, holders, capacity] using consistent.serves.enqueue who closed busy
        · rw [acquire_of_free fresh closed free]
          refine ⟨distinct _, ?_⟩
          simpa [line, holders, capacity] using consistent.serves.grant free

/-! ## Giving a permit back -/

theorem release_of_not_held {gate : Gate ι} {who : ι}
    (idle : gate.claims.get? who ≠ some .held) : gate.release who = gate := by
  unfold release
  split
  · rename_i held
    exact absurd held idle
  · rfl

namespace Consistent

variable {gate : Gate ι} {who : ι}

/-- One permit fewer is held once a holder has given its own back. -/
theorem length_holders (consistent : gate.Consistent) (held : gate.claims.get? who = some .held) :
    gate.holders.length =
      ((gate.claims.set who .released).having fun claim => claim = .held).length + 1 := by
  have member := consistent.mem_holders.mpr held
  rw [Claims.having_set_of_not consistent.distinct who (by simp)]
  change _ = (gate.holders.erase who).length + 1
  rw [List.length_erase_of_mem member]
  exact (Nat.sub_add_cancel (List.length_pos_of_mem member)).symm

theorem line_set_released (consistent : gate.Consistent)
    (held : gate.claims.get? who = some .held) :
    ((gate.claims.set who .released).having fun claim => claim = .waiting) = gate.line :=
  Claims.having_set_of_same consistent.distinct held (by simp)

/-- The first in line waits, and is not one of those who hold a permit. -/
theorem first_in_line (consistent : gate.Consistent) (held : gate.claims.get? who = some .held)
    {first : ι} {rest : List ι} (waits : gate.line = first :: rest) :
    gate.claims.get? first = some .waiting ∧ first ≠ who := by
  have waiting := consistent.mem_line.mp (waits ▸ List.mem_cons_self)
  refine ⟨waiting, ?_⟩
  rintro rfl
  rw [held] at waiting
  cases waiting

/-- Nobody waits: the permit becomes free. -/
theorem release_of_nil (consistent : gate.Consistent) (held : gate.claims.get? who = some .held)
    (empty : gate.line = []) :
    gate.release who =
      { gate with
        semaphore := { gate.semaphore with free := gate.semaphore.free + 1 }
        claims := gate.claims.set who .released } := by
  have serves := consistent.serves
  rw [empty, consistent.length_holders held] at serves
  simp [Gate.release, held, serves.release_of_nil.1, handOver]

/-- Somebody waits: the permit goes to the first in line. -/
theorem release_of_cons (consistent : gate.Consistent) (held : gate.claims.get? who = some .held)
    {first : ι} {rest : List ι} (waits : gate.line = first :: rest) :
    gate.release who =
      { gate with
        semaphore := { gate.semaphore with queue := rest }
        claims := (gate.claims.set who .released).set first .held } := by
  have serves := consistent.serves
  rw [waits] at serves
  simp [Gate.release, held, serves.release_of_cons.1, handOver]

theorem release (consistent : gate.Consistent) (who : ι) : (gate.release who).Consistent := by
  by_cases held : gate.claims.get? who = some .held
  · have serves := consistent.serves
    have count := consistent.length_holders held
    have kept := consistent.line_set_released held
    have distinct : (gate.claims.set who .released).names.Nodup := by
      simpa using consistent.distinct
    cases waits : gate.line with
    | nil =>
        rw [consistent.release_of_nil held waits]
        rw [waits, count] at serves
        refine ⟨distinct, ?_⟩
        change Semaphore.Serves _ (Claims.having _ _) _ _
        rw [kept, waits]
        exact serves.release_of_nil.2
    | cons first rest =>
        rw [consistent.release_of_cons held waits]
        rw [waits] at serves
        obtain ⟨waiting, other⟩ := consistent.first_in_line held waits
        have found := (Claims.get?_set_of_ne other gate.claims .released).trans waiting
        have gained := Claims.length_having_set_of_gain (fun claim => claim = .held) distinct found
          (by simp) (.held) (by simp)
        refine ⟨by simpa using consistent.distinct, ?_⟩
        change Semaphore.Serves _ (Claims.having _ _) (Claims.having _ _).length _
        rw [gained, ← count, Claims.having_set_of_not distinct first (by simp), kept, waits,
          List.erase_cons_head]
        exact serves.release_of_cons.2
  · rw [release_of_not_held held]
    exact consistent

end Consistent

/-! ## Leaving the line, and closing -/

omit [DecidableEq ι] in
theorem line_close (gate : Gate ι) : gate.close.line = [] := by
  simp only [line, close, Claims.having_mapStates]
  apply Claims.having_eq_nil
  intro claim
  cases claim <;> simp

theorem cancel_of_waiting {gate : Gate ι} {who : ι}
    (waiting : gate.claims.get? who = some .waiting) :
    gate.cancel who =
      { gate with
        semaphore := gate.semaphore.withdraw who
        claims := gate.claims.set who .cancelled } := by
  simp [cancel, waiting]

theorem cancel_of_not_waiting {gate : Gate ι} {who : ι}
    (idle : gate.claims.get? who ≠ some .waiting) : gate.cancel who = gate := by
  unfold cancel
  split
  · rename_i waiting
    exact absurd waiting idle
  · rfl

namespace Consistent

variable {gate : Gate ι}

theorem cancel (consistent : gate.Consistent) (who : ι) : (gate.cancel who).Consistent := by
  by_cases waiting : gate.claims.get? who = some .waiting
  · rw [cancel_of_waiting waiting]
    refine ⟨by simpa using consistent.distinct, ?_⟩
    change Semaphore.Serves _ (Claims.having _ _) (Claims.having _ _).length _
    rw [Claims.having_set_of_not consistent.distinct who (by simp),
      Claims.having_set_of_same consistent.distinct waiting (by simp)]
    exact consistent.serves.withdraw who
  · rw [cancel_of_not_waiting waiting]
    exact consistent

omit [DecidableEq ι] in
theorem close (consistent : gate.Consistent) : gate.close.Consistent := by
  refine ⟨by simpa [Gate.close] using consistent.distinct, ?_⟩
  have same : gate.close.holders = gate.holders := by
    simp only [holders, Gate.close, Claims.having_mapStates]
    congr
    funext claim
    cases claim <;> simp
  rw [line_close, same]
  exact consistent.serves.close

theorem leave (consistent : gate.Consistent) (who : ι) : (gate.leave who).Consistent :=
  (consistent.cancel who).release who

end Consistent

/-! ## The capacity -/

theorem capacity_acquire (gate : Gate ι) (who : ι) :
    (gate.acquire who).capacity = gate.capacity := by
  unfold acquire
  split <;> rfl

theorem capacity_release (gate : Gate ι) (who : ι) :
    (gate.release who).capacity = gate.capacity := by
  unfold release
  split <;> rfl

theorem capacity_cancel (gate : Gate ι) (who : ι) : (gate.cancel who).capacity = gate.capacity := by
  unfold cancel
  split <;> rfl

theorem capacity_leave (gate : Gate ι) (who : ι) : (gate.leave who).capacity = gate.capacity :=
  (capacity_release _ who).trans (capacity_cancel gate who)

end Turnstile.Gate
