import Turnstile.Proofs.Pool.Slots
import Turnstile.Proofs.Semaphore

/-!
# The balance of a pool

Every slot is free or leased once, its line is made of the callers who wait for
it in order of arrival, and the slots are all open or all closed.  Every
operation is written out for each case in which it does something, and keeps the
balance.
-/

namespace Turnstile.Pool

variable {ι : Type} [DecidableEq ι]

/-- What the slots of a pool hold is what its claims say. -/
structure Consistent (pool : Pool ι) : Prop where
  distinct : pool.claims.names.Nodup
  placed : ∀ {who : ι} {claim : PoolClaim} {index : Nat},
    pool.claims.get? who = some claim → claim.slot? = some index → index < pool.size
  serves : ∀ {index : Nat} {slot : Slot ι}, pool.slots[index]? = some slot →
    slot.semaphore.Serves 1 (pool.line index) (pool.holders index).length
  alike : ∀ {index : Nat} {slot : Slot ι}, pool.slots[index]? = some slot →
    slot.semaphore.isClosed = pool.isClosed

theorem Consistent.of (endpoints : List Endpoint) : (Pool.of endpoints : Pool ι).Consistent where
  distinct := List.nodup_nil
  placed found := by cases found
  serves found := by
    simp only [Pool.of, List.getElem?_map, Option.map_eq_some_iff] at found
    obtain ⟨endpoint, _, rfl⟩ := found
    exact .start 1
  alike found := by
    have opened : (Pool.of endpoints : Pool ι).isClosed = false := by
      simp [isClosed, Pool.of, Slot.of]
    simp only [Pool.of, List.getElem?_map, Option.map_eq_some_iff] at found
    obtain ⟨endpoint, _, rfl⟩ := found
    exact opened.symm

namespace Consistent

variable {pool : Pool ι}

theorem mem_line (consistent : pool.Consistent) {who : ι} {index : Nat} :
    who ∈ pool.line index ↔ pool.claims.get? who = some (.waiting index) := by
  simp [line, Claims.mem_having consistent.distinct]

theorem mem_holders (consistent : pool.Consistent) {who : ι} {index : Nat} :
    who ∈ pool.holders index ↔ pool.claims.get? who = some (.leased index true) := by
  simp [holders, Claims.mem_having consistent.distinct]

/-- A slot is held by one caller at most. -/
theorem length_holders_le (consistent : pool.Consistent) {index : Nat} (bound : index < pool.size) :
    (pool.holders index).length ≤ 1 := by
  obtain ⟨slot, found⟩ := exists_slot bound
  have balance := (consistent.serves found).balance
  omega

theorem eq_of_leased (consistent : pool.Consistent) {first second : ι} {index : Nat}
    (one : pool.claims.get? first = some (.leased index true))
    (other : pool.claims.get? second = some (.leased index true)) : first = second := by
  have bound := consistent.placed one rfl
  have single := consistent.length_holders_le bound
  have one := consistent.mem_holders.mpr one
  have other := consistent.mem_holders.mpr other
  match holders : pool.holders index with
  | [] =>
      rw [holders] at one
      exact absurd one List.not_mem_nil
  | [who] =>
      rw [holders, List.mem_singleton] at one other
      exact one.trans other.symm
  | _ :: _ :: _ =>
      rw [holders] at single
      simp at single

theorem free_of_slot (consistent : pool.Consistent) {index : Nat} {slot : Slot ι}
    (found : pool.slots[index]? = some slot) :
    slot.semaphore.free + (pool.holders index).length = 1 :=
  (consistent.serves found).balance

/-- A slot whose server is not free is held by somebody. -/
theorem exists_holder (consistent : pool.Consistent) {index : Nat} {slot : Slot ι}
    (found : pool.slots[index]? = some slot) (busy : slot.semaphore.free = 0) :
    ∃ holder, pool.claims.get? holder = some (.leased index true) := by
  have balance := consistent.free_of_slot found
  have some : 0 < (pool.holders index).length := by omega
  obtain ⟨holder, member⟩ := List.exists_mem_of_length_pos some
  exact ⟨holder, consistent.mem_holders.mp member⟩

/-- Whoever waits for a slot waits for a pool that is open and a slot that is held. -/
theorem of_waiting (consistent : pool.Consistent) {who : ι} {index : Nat}
    (waiting : pool.claims.get? who = some (.waiting index)) :
    pool.isClosed = false ∧ ∃ holder, pool.claims.get? holder = some (.leased index true) := by
  obtain ⟨slot, found⟩ := exists_slot (consistent.placed waiting rfl)
  have waited : pool.line index ≠ [] := List.ne_nil_of_mem (consistent.mem_line.mpr waiting)
  have serves := consistent.serves found
  refine ⟨?_, consistent.exists_holder found (serves.busy waited)⟩
  rw [← consistent.alike found]
  exact serves.open_of_line waited

end Consistent

/-! ## Asking for a lease -/

theorem acquire_of_known {pool : Pool ι} {who : ι} {claim : PoolClaim}
    (known : pool.claims.get? who = some claim) : pool.acquire who = pool := by
  simp [acquire, known]

theorem acquire_of_empty {pool : Pool ι} {who : ι} (fresh : pool.claims.get? who = none)
    (empty : pool.size = 0) :
    pool.acquire who = { pool with claims := pool.claims.enter who .placeholder } := by
  have none : pool.slots[pool.choice]? = none := by
    rw [List.getElem?_eq_none_iff]
    change pool.size ≤ _
    omega
  simp [acquire, fresh, none]

/-- The pool once a new caller has been told how it stands, with the semaphore it asked. -/
def answer (pool : Pool ι) (who : ι) (index : Nat) (semaphore : Semaphore ι) (claim : PoolClaim) :
    Pool ι :=
  { pool.setSemaphore index semaphore with
    turn := pool.turn + 1
    claims := pool.claims.enter who claim }

/-- A new caller is sent away, gets the free slot it asks for, or waits where it started. -/
inductive Admission (pool : Pool ι) (who : ι) : Pool ι → Prop where
  | refused {slot : Slot ι} (closed : pool.isClosed = true)
      (found : pool.slots[pool.choice]? = some slot) :
      Admission pool who (pool.answer who pool.choice slot.semaphore .interrupted)
  | granted {slot : Slot ι} (opened : pool.isClosed = false)
      (found : pool.slots[pool.choice]? = some slot) (free : 0 < slot.semaphore.free) :
      Admission pool who (pool.answer who pool.choice
        { slot.semaphore with free := slot.semaphore.free - 1 } (.leased pool.choice true))
  | queued {slot : Slot ι} (opened : pool.isClosed = false)
      (found : pool.slots[pool.start]? = some slot)
      (busy : ∀ {index : Nat} {slot : Slot ι}, pool.slots[index]? = some slot →
        slot.semaphore.free = 0) :
      Admission pool who (pool.answer who pool.start
        { slot.semaphore with queue := slot.semaphore.queue ++ [who] } (.waiting pool.start))

theorem Consistent.acquire_admission {pool : Pool ι} (consistent : pool.Consistent) {who : ι}
    (some : 0 < pool.size) (fresh : pool.claims.get? who = none) :
    pool.Admission who (pool.acquire who) := by
  obtain ⟨bound, state⟩ := choice_spec some
  obtain ⟨slot, found⟩ := exists_slot bound
  have alike := consistent.alike found
  cases closed : pool.isClosed with
  | true =>
      have told := Semaphore.acquire_of_closed who (alike.trans closed)
      have asked : pool.acquire who = pool.answer who pool.choice slot.semaphore .interrupted := by
        simp [acquire, fresh, found, told, answer]
      rw [asked]
      exact .refused closed found
  | false =>
      have opened := alike.trans closed
      rcases Nat.eq_zero_or_pos slot.semaphore.free with busy | free
      · rcases state with idle | ⟨same, all⟩
        · rw [isBusyAt_of_slot found, Semaphore.isBusy_eq_true_iff.mpr ⟨opened, busy⟩] at idle
          cases idle
        · have told := Semaphore.acquire_of_busy who opened busy
          have asked : pool.acquire who = pool.answer who pool.choice
              { slot.semaphore with queue := slot.semaphore.queue ++ [who] }
              (.waiting pool.choice) := by
            simp [acquire, fresh, found, told, answer]
          rw [asked]
          rw [same] at found ⊢
          refine .queued closed found ?_
          intro index other at_other
          have busy := all index (lt_size_of_slot at_other)
          rw [isBusyAt_of_slot at_other] at busy
          exact (Semaphore.isBusy_eq_true_iff.mp busy).2
      · have told := Semaphore.acquire_of_free who opened free
        have asked : pool.acquire who = pool.answer who pool.choice
            { slot.semaphore with free := slot.semaphore.free - 1 } (.leased pool.choice true) := by
          simp [acquire, fresh, found, told, answer]
        rw [asked]
        exact .granted closed found free

/--
One slot's semaphore and the claims change together: the balance is kept if the
claims agree with the new semaphore and say of the other slots what they said.
-/
theorem Consistent.update {pool : Pool ι} (consistent : pool.Consistent) {index : Nat}
    {slot : Slot ι} (found : pool.slots[index]? = some slot) {semaphore : Semaphore ι}
    {turn : UInt64} {claims : Claims ι PoolClaim} (distinct : claims.names.Nodup)
    (placed : ∀ {who : ι} {claim : PoolClaim} {other : Nat},
      claims.get? who = some claim → claim.slot? = some other → other < pool.size)
    (serves : semaphore.Serves 1 (claims.having fun claim => claim = .waiting index)
      (claims.having fun claim => claim = .leased index true).length)
    (others : ∀ {other : Nat}, other ≠ index →
      (claims.having fun claim => claim = .waiting other) = pool.line other ∧
        (claims.having fun claim => claim = .leased other true) = pool.holders other)
    (same : semaphore.isClosed = slot.semaphore.isClosed) :
    Consistent { pool.setSemaphore index semaphore with turn, claims } where
  distinct := distinct
  placed known about := by
    have bound := placed known about
    simpa [size, setSemaphore] using bound
  serves {other changed} at_other := by
    change (pool.setSemaphore index semaphore).slots[other]? = some changed at at_other
    rw [getElem?_setSemaphore] at at_other
    split at at_other
    · rename_i here
      subst here
      rw [found] at at_other
      cases at_other
      exact serves
    · rename_i different
      obtain ⟨line, holders⟩ := others (Ne.symm different)
      change changed.semaphore.Serves 1 (claims.having _) (claims.having _).length
      rw [line, holders]
      exact consistent.serves at_other
  alike {other changed} at_other := by
    change changed.semaphore.isClosed = (pool.setSemaphore index semaphore).isClosed
    change (pool.setSemaphore index semaphore).slots[other]? = some changed at at_other
    rw [isClosed_setSemaphore found same]
    rw [getElem?_setSemaphore] at at_other
    split at at_other
    · rename_i here
      subst here
      rw [found] at at_other
      cases at_other
      exact same.trans (consistent.alike found)
    · exact consistent.alike at_other

/-- A new claim is about no slot but its own. -/
theorem placed_enter {pool : Pool ι} (consistent : pool.Consistent) {who : ι}
    (fresh : pool.claims.get? who = none) {claim : PoolClaim}
    (bound : ∀ {index : Nat}, claim.slot? = some index → index < pool.size) {caller : ι}
    {state : PoolClaim} {other : Nat}
    (known : (pool.claims.enter who claim).get? caller = some state)
    (about : state.slot? = some other) : other < pool.size := by
  rw [Claims.get?_enter fresh] at known
  split at known
  · cases known
    exact bound about
  · exact consistent.placed known about

/-- A pool without servers gives a lease of none. -/
theorem Consistent.pretend {pool : Pool ι} (consistent : pool.Consistent) {who : ι}
    (fresh : pool.claims.get? who = none) (empty : pool.size = 0) :
    { pool with claims := pool.claims.enter who .placeholder }.Consistent := by
  refine ⟨Claims.nodup_names_enter consistent.distinct fresh _,
    placed_enter consistent fresh (fun about => by cases about), fun {index slot} found => ?_,
    fun found => consistent.alike found⟩
  have bound : index < pool.size := lt_size_of_slot found
  omega

theorem Consistent.admit {pool after : Pool ι} (consistent : pool.Consistent) {who : ι}
    (fresh : pool.claims.get? who = none) (admission : pool.Admission who after) :
    after.Consistent := by
  have distinct := Claims.nodup_names_enter consistent.distinct fresh
  cases admission with
  | refused closed found =>
      refine consistent.update found (distinct _)
        (placed_enter consistent fresh (fun about => by cases about)) ?_ ?_ rfl
      · simpa [line, holders] using consistent.serves found
      · simp [line, holders]
  | granted opened found free =>
      refine consistent.update found (distinct _) (placed_enter consistent fresh ?_) ?_ ?_ rfl
      · rintro index ⟨⟩
        exact lt_size_of_slot found
      · simpa [line, holders] using (consistent.serves found).grant free
      · intro other different
        simp [line, holders, Ne.symm different]
  | @queued slot opened found busy =>
      refine consistent.update found (distinct _) (placed_enter consistent fresh ?_) ?_ ?_ rfl
      · rintro index ⟨⟩
        exact lt_size_of_slot found
      · simpa [line, holders] using (consistent.serves found).enqueue who
          ((consistent.alike found).trans opened) (busy found)
      · intro other different
        simp [line, holders, Ne.symm different]

/-! ## Giving a server back -/

/-- A caller's lease comes to an end, and its server is given back. -/
def giveBack (pool : Pool ι) (who : ι) (index : Nat) (claim : PoolClaim) : Pool ι :=
  (pool.setClaim who claim).freeSlot index

namespace Consistent

variable {pool : Pool ι} {who : ι} {index : Nat} {claim : PoolClaim}

/-- Nobody waits: the slot becomes free. -/
theorem giveBack_of_nil (consistent : pool.Consistent) {slot : Slot ι}
    (found : pool.slots[index]? = some slot) (empty : pool.line index = []) :
    pool.giveBack who index claim =
      { pool.setSemaphore index { slot.semaphore with free := slot.semaphore.free + 1 } with
        claims := pool.claims.set who claim } := by
  have queue := (consistent.serves found).queue_eq
  simp [Pool.giveBack, setClaim, freeSlot, found, Semaphore.release, queue, empty, handOver,
    setSemaphore]

/-- Somebody waits: the server goes to the first in line. -/
theorem giveBack_of_cons (consistent : pool.Consistent) {slot : Slot ι}
    (found : pool.slots[index]? = some slot) {first : ι} {rest : List ι}
    (waits : pool.line index = first :: rest) :
    pool.giveBack who index claim =
      { pool.setSemaphore index { slot.semaphore with queue := rest } with
        claims := (pool.claims.set who claim).set first (.leased index true) } := by
  have queue := (consistent.serves found).queue_eq
  simp [Pool.giveBack, setClaim, freeSlot, found, Semaphore.release, queue, waits, handOver,
    setSemaphore]

/-- The lines are the same once a lease has come to an end. -/
theorem line_set_idle (consistent : pool.Consistent)
    (held : pool.claims.get? who = some (.leased index true)) (idle : claim.isIdle = true)
    (other : Nat) :
    ((pool.claims.set who claim).having fun claim => claim = .waiting other) = pool.line other := by
  apply Claims.having_set_of_same consistent.distinct held
  cases claim <;> simp_all [PoolClaim.isIdle]

theorem holders_set_idle (consistent : pool.Consistent) (idle : claim.isIdle = true) :
    ((pool.claims.set who claim).having fun claim => claim = .leased index true) =
      (pool.holders index).erase who := by
  apply Claims.having_set_of_not consistent.distinct who
  cases claim <;> simp_all [PoolClaim.isIdle]

theorem holders_set_of_ne (consistent : pool.Consistent)
    (held : pool.claims.get? who = some (.leased index true)) (idle : claim.isIdle = true)
    {other : Nat} (different : other ≠ index) :
    ((pool.claims.set who claim).having fun claim => claim = .leased other true) =
      pool.holders other := by
  apply Claims.having_set_of_same consistent.distinct held
  cases claim <;> simp_all [PoolClaim.isIdle, Ne.symm different]

theorem length_holders (consistent : pool.Consistent)
    (held : pool.claims.get? who = some (.leased index true)) :
    (pool.holders index).length = ((pool.holders index).erase who).length + 1 := by
  have member := consistent.mem_holders.mpr held
  rw [List.length_erase_of_mem member]
  exact (Nat.sub_add_cancel (List.length_pos_of_mem member)).symm

/-- A lease that has come to an end is about the slot that it was about. -/
theorem placed_set (consistent : pool.Consistent)
    (held : pool.claims.get? who = some (.leased index true))
    (own : ∀ {other : Nat}, claim.slot? = some other → other = index) {caller : ι}
    {state : PoolClaim} {other : Nat} (known : (pool.claims.set who claim).get? caller = some state)
    (about : state.slot? = some other) : other < pool.size := by
  rw [Claims.get?_set] at known
  split at known
  · simp only [held, Option.map_some, Option.some.injEq] at known
    subst known
    rw [own about]
    exact consistent.placed held rfl
  · exact consistent.placed known about

theorem giveBack (consistent : pool.Consistent)
    (held : pool.claims.get? who = some (.leased index true)) (idle : claim.isIdle = true)
    (own : ∀ {other : Nat}, claim.slot? = some other → other = index) :
    (pool.giveBack who index claim).Consistent := by
  obtain ⟨slot, found⟩ := exists_slot (consistent.placed held rfl)
  have serves := consistent.serves found
  have count := consistent.length_holders held
  have distinct : (pool.claims.set who claim).names.Nodup := by simpa using consistent.distinct
  cases waits : pool.line index with
  | nil =>
      rw [consistent.giveBack_of_nil found waits]
      refine consistent.update found distinct (consistent.placed_set held own) ?_
        (fun different => ⟨consistent.line_set_idle held idle _,
          consistent.holders_set_of_ne held idle different⟩) rfl
      rw [consistent.line_set_idle held idle, consistent.holders_set_idle idle, waits]
      rw [waits, count] at serves
      exact serves.release_of_nil.2
  | cons first rest =>
      rw [consistent.giveBack_of_cons found waits]
      have waiting := consistent.mem_line.mp (waits ▸ List.mem_cons_self)
      have other : first ≠ who := by
        rintro rfl
        rw [held] at waiting
        cases waiting
      have known := (Claims.get?_set_of_ne other pool.claims claim).trans waiting
      refine consistent.update found (by simpa using consistent.distinct) ?_ ?_ ?_ rfl
      · intro caller state about_slot known_state about
        rw [Claims.get?_set] at known_state
        split at known_state
        · simp only [known, Option.map_some, Option.some.injEq] at known_state
          subst known_state
          cases about
          exact consistent.placed held rfl
        · exact consistent.placed_set held own known_state about
      · rw [Claims.length_having_set_of_gain (fun claim => claim = .leased index true) distinct known
            (by simp) (.leased index true) (by simp),
          Claims.having_set_of_not distinct first (by simp), consistent.line_set_idle held idle,
          consistent.holders_set_idle idle, ← count, waits, List.erase_cons_head]
        rw [waits] at serves
        exact serves.release_of_cons.2
      · intro slot different
        rw [Claims.having_set_of_same distinct known (by simp [Ne.symm different]),
          Claims.having_set_of_same distinct known (by simp [Ne.symm different])]
        exact ⟨consistent.line_set_idle held idle _,
          consistent.holders_set_of_ne held idle different⟩

end Consistent

theorem closeLease_of_leased {pool : Pool ι} {who : ι} {index : Nat}
    (held : pool.claims.get? who = some (.leased index true)) :
    pool.closeLease who = pool.giveBack who index (.leased index false) := by
  simp [closeLease, held, giveBack]

theorem closeLease_of_not_leased {pool : Pool ι} {who : ι}
    (idle : ∀ index, pool.claims.get? who ≠ some (.leased index true)) :
    pool.closeLease who = pool := by
  unfold closeLease
  split
  · rename_i index held
    exact absurd held (idle index)
  · rfl

theorem drop_of_leased {pool : Pool ι} {who : ι} {index : Nat}
    (held : pool.claims.get? who = some (.leased index true)) :
    pool.drop who = pool.giveBack who index .dropped := by
  simp [drop, held, giveBack]

/-- Dropping a lease that was closed before, or a placeholder, is a matter of its claim alone. -/
theorem drop_of_not_leased {pool : Pool ι} {who : ι}
    (idle : ∀ index, pool.claims.get? who ≠ some (.leased index true)) :
    pool.drop who = pool ∨
      ((∃ index, pool.claims.get? who = some (.leased index false)) ∨
        pool.claims.get? who = some .placeholder) ∧ pool.drop who = pool.setClaim who .dropped := by
  unfold drop
  split
  · rename_i index held
    exact absurd held (idle index)
  · rename_i index closed
    exact .inr ⟨.inl ⟨index, closed⟩, rfl⟩
  · rename_i held
    exact .inr ⟨.inr held, rfl⟩
  · exact .inl rfl

namespace Consistent

variable {pool : Pool ι}

/-- A claim that neither waits nor holds may change to another such claim about no slot. -/
theorem setClaim (consistent : pool.Consistent) {who : ι} {old claim : PoolClaim}
    (known : pool.claims.get? who = some old) (was : old.isIdle = true)
    (idle : claim.isIdle = true) (about : claim.slot? = none) :
    (pool.setClaim who claim).Consistent where
  distinct := by simpa [Pool.setClaim] using consistent.distinct
  placed {caller state other} found at_slot := by
    simp only [Pool.setClaim, Claims.get?_set] at found
    split at found
    · simp only [known, Option.map_some, Option.some.injEq] at found
      subst found
      rw [about] at at_slot
      cases at_slot
    · exact consistent.placed found at_slot
  serves {index slot} found := by
    have line : (pool.setClaim who claim).line index = pool.line index := by
      apply Claims.having_set_of_same consistent.distinct known
      cases old <;> cases claim <;> simp_all [PoolClaim.isIdle]
    have holders : (pool.setClaim who claim).holders index = pool.holders index := by
      apply Claims.having_set_of_same consistent.distinct known
      cases old <;> cases claim <;> simp_all [PoolClaim.isIdle]
    rw [line, holders]
    exact consistent.serves found
  alike found := consistent.alike found

end Consistent

/-! ## Leaving the line, and closing -/

theorem cancel_of_waiting {pool : Pool ι} {who : ι} {index : Nat} {slot : Slot ι}
    (waiting : pool.claims.get? who = some (.waiting index))
    (found : pool.slots[index]? = some slot) :
    pool.cancel who =
      { pool.setSemaphore index (slot.semaphore.withdraw who) with
        claims := pool.claims.set who .cancelled } := by
  have same : (pool.slots.modify index fun slot =>
      { slot with semaphore := slot.semaphore.withdraw who }) =
        (pool.setSemaphore index (slot.semaphore.withdraw who)).slots := by
    apply List.ext_getElem?
    intro other
    rw [getElem?_setSemaphore, List.getElem?_modify]
    split
    · rename_i here
      rw [← here, found]
      rfl
    · cases pool.slots[other]? <;> rfl
  simp only [cancel, waiting, same]
  rfl

theorem cancel_of_not_waiting {pool : Pool ι} {who : ι}
    (idle : ∀ index, pool.claims.get? who ≠ some (.waiting index)) : pool.cancel who = pool := by
  unfold cancel
  split
  · rename_i index waiting
    exact absurd waiting (idle index)
  · rfl

namespace Consistent

variable {pool : Pool ι}

/-- A caller who waits leaves the line. -/
theorem withdraw (consistent : pool.Consistent) {who : ι} {index : Nat} {slot : Slot ι}
    (waiting : pool.claims.get? who = some (.waiting index))
    (found : pool.slots[index]? = some slot) :
    { pool.setSemaphore index (slot.semaphore.withdraw who) with
      claims := pool.claims.set who .cancelled }.Consistent := by
  refine consistent.update found (by simpa using consistent.distinct) ?_ ?_ ?_ rfl
  · intro caller state other known about
    rw [Claims.get?_set] at known
    split at known
    · simp only [waiting, Option.map_some, Option.some.injEq] at known
      subst known
      cases about
    · exact consistent.placed known about
  · rw [Claims.having_set_of_not consistent.distinct who (by simp),
      Claims.having_set_of_same consistent.distinct waiting (by simp)]
    exact (consistent.serves found).withdraw who
  · intro other different
    exact ⟨Claims.having_set_of_same consistent.distinct waiting (by simp [Ne.symm different]),
      Claims.having_set_of_same consistent.distinct waiting (by simp)⟩

omit [DecidableEq ι] in
@[simp] theorem line_close (index : Nat) : pool.close.line index = [] := by
  simp only [line, Pool.close, Claims.having_mapStates]
  apply Claims.having_eq_nil
  intro claim
  cases claim <;> simp

omit [DecidableEq ι] in
@[simp] theorem holders_close (index : Nat) : pool.close.holders index = pool.holders index := by
  simp only [holders, Pool.close, Claims.having_mapStates]
  congr
  funext claim
  cases claim <;> simp

omit [DecidableEq ι] in
theorem getElem?_close {index : Nat} {slot : Slot ι}
    (found : pool.close.slots[index]? = some slot) :
    ∃ old, pool.slots[index]? = some old ∧
      slot = { old with semaphore := old.semaphore.close } := by
  simp only [Pool.close, List.getElem?_map, Option.map_eq_some_iff] at found
  obtain ⟨old, found, same⟩ := found
  exact ⟨old, found, same.symm⟩

theorem close (consistent : pool.Consistent) : pool.close.Consistent where
  distinct := by simpa [Pool.close] using consistent.distinct
  placed {who claim index} known about := by
    simp only [Pool.close, Claims.get?_mapStates, Option.map_eq_some_iff] at known
    obtain ⟨old, known, rfl⟩ := known
    have same : old.slot? = some index := by cases old <;> simp_all [PoolClaim.slot?]
    simpa [Pool.close, size] using consistent.placed known same
  serves found := by
    obtain ⟨old, before, rfl⟩ := getElem?_close found
    rw [line_close, holders_close]
    exact (consistent.serves before).close
  alike {index slot} found := by
    have closed : slot.semaphore.isClosed = true := by
      obtain ⟨old, _, rfl⟩ := getElem?_close found
      rfl
    exact closed.trans (isClosed_eq_true_iff.mpr ⟨index, slot, found, closed⟩).symm

end Consistent

end Turnstile.Pool
