import Mathlib.Data.List.Dedup
import Turnstile.Proofs.Pool.Leases

/-!
# Taking turns at the servers

Each caller starts to look one slot further than the caller before.  From there on it
looks at every slot once and takes the first that is free; if none is, it waits for
the slot at which it started, and never gets another.  As long as callers give their
servers back before others ask, the servers are used in turn.
-/

namespace Turnstile.Pool

variable {ι : Type}

/-! ## Around the slots -/

/-- How many slots are passed on the way from one slot round to another. -/
def distance (size start slot : Nat) : Nat :=
  (slot + size - start) % size

section Around

variable {size start : Nat}

theorem distance_lt (bound : start < size) (slot : Nat) : distance size start slot < size :=
  Nat.mod_lt _ (Nat.zero_lt_of_lt bound)

/-- The slot at the distance of a slot is that slot. -/
theorem add_distance_mod (bound : start < size) {slot : Nat} (limit : slot < size) :
    (start + distance size start slot) % size = slot := by
  rw [distance, Nat.add_mod_mod, Nat.add_sub_cancel' (by omega), Nat.add_mod_right]
  exact Nat.mod_eq_of_lt limit

theorem distance_add_mod (bound : start < size) {offset : Nat} (limit : offset < size) :
    distance size start ((start + offset) % size) = offset := by
  rw [distance, Nat.add_sub_assoc (Nat.le_of_lt bound), Nat.mod_add_mod,
    show start + offset + (size - start) = offset + size by omega, Nat.add_mod_right]
  exact Nat.mod_eq_of_lt limit

theorem distance_self (bound : start < size) : distance size start start = 0 := by
  have around := distance_add_mod bound (Nat.zero_lt_of_lt bound)
  rwa [Nat.add_zero, Nat.mod_eq_of_lt bound] at around

end Around

/-! ## Looking for a server -/

/-- The slots that the next caller looks at, up to the first that need not be waited for. -/
def looks (pool : Pool ι) : List Nat :=
  pool.order.take (pool.order.findIdx (fun index => !pool.isBusyAt index) + 1)

section Search

variable {pool : Pool ι}

theorem length_order (pool : Pool ι) : pool.order.length = pool.size := by
  simp [order]

theorem getElem_order {offset : Nat} (bound : offset < pool.order.length) :
    pool.order[offset] = (pool.start + offset) % pool.size := by
  simp [order]

theorem distance_getElem_order {offset : Nat} (bound : offset < pool.order.length) :
    distance pool.size pool.start pool.order[offset] = offset := by
  have limit : offset < pool.size := length_order pool ▸ bound
  rw [getElem_order, distance_add_mod (start_lt (Nat.zero_lt_of_lt limit)) limit]

/-- The slots are looked at as they come, from the start on. -/
theorem pairwise_order (pool : Pool ι) :
    pool.order.Pairwise fun first second =>
      distance pool.size pool.start first < distance pool.size pool.start second := by
  rw [List.pairwise_iff_getElem]
  intro i j low high before
  rwa [distance_getElem_order, distance_getElem_order]

theorem getElem_order_distance {slot : Nat} (bound : slot < pool.size) :
    ∃ limit : distance pool.size pool.start slot < pool.order.length,
      pool.order[distance pool.size pool.start slot] = slot := by
  have start := start_lt (Nat.zero_lt_of_lt bound)
  refine ⟨length_order pool ▸ distance_lt start slot, ?_⟩
  rw [getElem_order, add_distance_mod start bound]

/-- Every slot that is nearer to the start has to be waited for. -/
def BusyBefore (pool : Pool ι) (slot : Nat) : Prop :=
  ∀ nearer < pool.size,
    distance pool.size pool.start nearer < distance pool.size pool.start slot →
      pool.isBusyAt nearer = true

theorem busyBefore_getElem_order {offset : Nat} (bound : offset < pool.order.length) :
    pool.BusyBefore pool.order[offset] ↔
      ∀ (earlier : Nat) (limit : earlier < pool.order.length), earlier < offset →
        pool.isBusyAt pool.order[earlier] = true := by
  unfold BusyBefore
  rw [distance_getElem_order]
  constructor
  · intro busy earlier limit less
    refine busy _ (lt_size_of_mem_order (List.getElem_mem limit)) ?_
    rwa [distance_getElem_order]
  · intro busy nearer limit less
    obtain ⟨place, there⟩ := getElem_order_distance limit
    have passed := busy _ place less
    rwa [there] at passed

/-- A slot is looked at if none before it is free, and no other is looked at. -/
theorem mem_looks {slot : Nat} : slot ∈ pool.looks ↔ slot < pool.size ∧ pool.BusyBefore slot := by
  rw [looks, List.mem_take_iff_getElem]
  constructor
  · rintro ⟨offset, limit, rfl⟩
    have bound : offset < pool.order.length := by omega
    refine ⟨lt_size_of_mem_order (List.getElem_mem bound), ?_⟩
    rw [busyBefore_getElem_order]
    intro earlier _ less
    have passed := List.not_of_lt_findIdx
      (show earlier < pool.order.findIdx fun index => !pool.isBusyAt index by omega)
    simpa using passed
  · rintro ⟨limit, busy⟩
    obtain ⟨bound, there⟩ := getElem_order_distance limit
    refine ⟨_, ?_, there⟩
    rw [← there, busyBefore_getElem_order] at busy
    have passed : ¬ pool.order.findIdx (fun index => !pool.isBusyAt index) <
        distance pool.size pool.start slot := by
      intro less
      have idle := List.findIdx_getElem (p := fun index => !pool.isBusyAt index)
        (w := Nat.lt_trans less bound)
      rw [busy _ _ less] at idle
      cases idle
    omega

theorem pairwise_looks (pool : Pool ι) :
    pool.looks.Pairwise fun first second =>
      distance pool.size pool.start first < distance pool.size pool.start second :=
  (pairwise_order pool).take

/-- The nearest slot that need not be waited for is asked, or the first if all must be. -/
theorem choice_cases (pool : Pool ι) :
    (pool.choice < pool.size ∧ pool.isBusyAt pool.choice = false ∧ pool.BusyBefore pool.choice) ∨
      (pool.choice = pool.start ∧ ∀ slot < pool.size, pool.isBusyAt slot = true) := by
  unfold choice
  cases found : pool.order.find? fun index => !pool.isBusyAt index with
  | some slot =>
      obtain ⟨idle, offset, bound, rfl, before⟩ := List.find?_eq_some_iff_getElem.mp found
      refine .inl ⟨lt_size_of_mem_order (List.getElem_mem bound), by simpa using idle, ?_⟩
      rw [Option.getD_some, busyBefore_getElem_order]
      intro earlier _ less
      simpa using before earlier less
  | none =>
      refine .inr ⟨rfl, ?_⟩
      intro slot bound
      simpa using List.find?_eq_none.mp found slot (mem_order bound)

end Search

/-! ## Counting the callers -/

/-- The caller who comes with an action. -/
def Action.caller? : Action ι → Option ι
  | .acquire who => some who
  | _ => none

theorem mem_filterMap_caller? {actions : List (Action ι)} {who : ι} :
    who ∈ actions.filterMap Action.caller? ↔ .acquire who ∈ actions := by
  rw [List.mem_filterMap]
  constructor
  · rintro ⟨action, member, same⟩
    cases action <;> cases same
    exact member
  · exact fun member => ⟨_, member, rfl⟩

variable [DecidableEq ι]

/-- How many callers have asked for a server. -/
def calls (actions : List (Action ι)) : Nat :=
  (actions.filterMap Action.caller?).dedup.length

theorem length_claims_run_of (endpoints : List Endpoint) (actions : List (Action ι)) :
    ((of endpoints).run actions).claims.length = calls actions := by
  have consistent := (Consistent.of endpoints : (of endpoints : Pool ι).Consistent).run actions
  rw [← List.length_map Prod.fst]
  refine ((List.perm_ext_iff_of_nodup consistent.distinct (List.nodup_dedup _)).mpr ?_).length_eq
  intro who
  rw [mem_names_run_of, List.mem_dedup, mem_filterMap_caller?]

namespace Consistent

variable {pool : Pool ι}

/-- A pool with servers counts every caller, in a word that may wrap. -/
theorem turn_step (consistent : pool.Consistent) (some : 0 < pool.size)
    (counted : pool.turn = .ofNat pool.claims.length) (action : Action ι) :
    (pool.step action).turn = .ofNat (pool.step action).claims.length := by
  have effect := consistent.effect action
  generalize pool.step action = after at effect
  have entered {who : ι} {claim : PoolClaim} :
      pool.turn + 1 = .ofNat (pool.claims.enter who claim).length := by
    rw [Claims.enter, List.length_append, List.length_singleton, UInt64.ofNat_add, counted]
    rfl
  have replaced {who : ι} {claim : PoolClaim} :
      pool.turn = .ofNat (pool.claims.set who claim).length := by
    rw [Claims.set, List.length_map, counted]
  have returned {who : ι} {index : Nat} {claim : PoolClaim}
      (held : pool.claims.get? who = Option.some (.leased index true)) :
      (pool.giveBack who index claim).turn =
        .ofNat (pool.giveBack who index claim).claims.length := by
    obtain ⟨slot, found⟩ := exists_slot (consistent.placed held rfl)
    cases waits : pool.line index with
    | nil =>
        rw [consistent.giveBack_of_nil found waits]
        exact replaced
    | cons first rest =>
        simpa [consistent.giveBack_of_cons found waits, Claims.set, setSemaphore] using counted
  cases effect with
  | nothing other => exact counted
  | asked fresh admission => cases admission <;> exact entered
  | pretended fresh empty => omega
  | closed held => exact returned held
  | dropped held => exact returned held
  | discarded spare => exact replaced
  | left waiting found => exact replaced
  | shut => simpa [Pool.close, Claims.mapStates] using counted

theorem turn_run (consistent : pool.Consistent) (some : 0 < pool.size)
    (counted : pool.turn = .ofNat pool.claims.length) (actions : List (Action ι)) :
    (pool.run actions).turn = .ofNat (pool.run actions).claims.length := by
  induction actions generalizing pool with
  | nil => exact counted
  | cons action actions ih =>
      exact ih (consistent.step action) ((consistent.size_step action).symm ▸ some)
        (consistent.turn_step some counted action)

end Consistent

/-- The caller who comes after so many others starts at the slot with that number. -/
theorem start_run_of {endpoints : List Endpoint} (nonempty : endpoints ≠ [])
    (actions : List (Action ι)) :
    ((of endpoints).run actions).start = calls actions % UInt64.size % endpoints.length := by
  have start : (of endpoints : Pool ι).Consistent := .of endpoints
  have length : (of endpoints : Pool ι).size = endpoints.length := List.length_map _
  have turn := start.turn_run (length ▸ List.length_pos_iff.mpr nonempty) rfl actions
  rw [Pool.start, turn, start.size_run, length, length_claims_run_of, UInt64.toNat_ofNat']

/-! ## Asking -/

/-- The free slot to which a caller comes first on its way round. -/
structure Nearest (pool : Pool ι) (slot : Nat) : Prop where
  bound : slot < pool.size
  free : 0 < pool.freeAt slot
  least : ∀ other < pool.size, other ≠ slot → 0 < pool.freeAt other →
    distance pool.size pool.start slot < distance pool.size pool.start other

namespace Consistent

variable {pool : Pool ι} {who : ι}

theorem isBusyAt_iff (consistent : pool.Consistent) (opened : pool.isClosed = false) {slot : Nat}
    (bound : slot < pool.size) : pool.isBusyAt slot = true ↔ pool.freeAt slot = 0 := by
  obtain ⟨state, found⟩ := exists_slot bound
  have alike := (consistent.alike found).trans opened
  simp [isBusyAt_of_slot found, Semaphore.isBusy_eq_true_iff, alike, freeAt, found]

theorem mem_looks (consistent : pool.Consistent) (opened : pool.isClosed = false) {slot : Nat} :
    slot ∈ pool.looks ↔ slot < pool.size ∧ ∀ nearer < pool.size,
      distance pool.size pool.start nearer < distance pool.size pool.start slot →
        pool.freeAt nearer = 0 := by
  rw [Pool.mem_looks, BusyBefore]
  refine and_congr_right fun _ => forall₃_congr fun nearer bound _ => ?_
  exact consistent.isBusyAt_iff opened bound

theorem perm_looks (consistent : pool.Consistent) (opened : pool.isClosed = false)
    (taken : ∀ slot < pool.size, pool.freeAt slot = 0) :
    pool.looks.Perm (List.range pool.size) := by
  have distinct : pool.looks.Nodup := (pairwise_looks pool).imp fun before same => by
    rw [same] at before
    exact Nat.lt_irrefl _ before
  refine (List.perm_ext_iff_of_nodup distinct List.nodup_range).mpr fun slot => ?_
  rw [consistent.mem_looks opened, List.mem_range]
  exact and_iff_left fun nearer bound _ => taken nearer bound

/-- A caller asks for the free slot that comes first. -/
theorem nearest_choice (consistent : pool.Consistent) (opened : pool.isClosed = false)
    (some : ∃ slot < pool.size, 0 < pool.freeAt slot) : pool.Nearest pool.choice := by
  have busy {slot : Nat} (bound : slot < pool.size) := consistent.isBusyAt_iff opened bound
  rcases choice_cases pool with ⟨bound, idle, passed⟩ | ⟨_, all⟩
  · have start := start_lt (Nat.zero_lt_of_lt bound)
    refine ⟨bound, Nat.pos_of_ne_zero fun taken => ?_, ?_⟩
    · rw [(busy bound).mpr taken] at idle
      cases idle
    · intro other limit different free
      by_contra near
      rcases Nat.lt_or_eq_of_le (Nat.not_lt.mp near) with nearer | same
      · have taken := (busy limit).mp (passed other limit nearer)
        omega
      · refine different ?_
        rw [← add_distance_mod start limit, same, add_distance_mod start bound]
  · obtain ⟨slot, bound, free⟩ := some
    have taken := (busy bound).mp (all slot bound)
    omega

theorem get?_acquire_of_free (consistent : pool.Consistent) (opened : pool.isClosed = false)
    (fresh : pool.claims.get? who = none) (some : ∃ slot < pool.size, 0 < pool.freeAt slot) :
    (pool.step (.acquire who)).claims.get? who = Option.some (.leased pool.choice true) := by
  obtain ⟨slot, bound, free⟩ := some
  have admission := consistent.acquire_admission (Nat.zero_lt_of_lt bound) fresh
  change (pool.acquire who).claims.get? who = _
  generalize pool.acquire who = after at admission
  cases admission with
  | refused closed => simp [opened] at closed
  | granted => simp [answer, Claims.get?_enter fresh]
  | queued _ _ busy =>
      obtain ⟨state, found⟩ := exists_slot bound
      simp [freeAt, found, busy found] at free

theorem get?_acquire_of_taken (consistent : pool.Consistent) (opened : pool.isClosed = false)
    (fresh : pool.claims.get? who = none) (some : 0 < pool.size)
    (taken : ∀ slot < pool.size, pool.freeAt slot = 0) :
    (pool.step (.acquire who)).claims.get? who = Option.some (.waiting pool.start) := by
  have admission := consistent.acquire_admission some fresh
  change (pool.acquire who).claims.get? who = _
  generalize pool.acquire who = after at admission
  cases admission with
  | refused closed => simp [opened] at closed
  | granted _ found free =>
      have none := taken _ (lt_size_of_slot found)
      simp only [freeAt, found, Option.elim_some] at none
      omega
  | queued => simp [answer, Claims.get?_enter fresh]

/-- A claim stays with the slot that it is about. -/
theorem slot_of_run (consistent : pool.Consistent) {claim : PoolClaim} {slot : Nat}
    (known : pool.claims.get? who = some claim) (about : claim.slot? = some slot)
    (actions : List (Action ι)) {later : PoolClaim} {other : Nat}
    (after : (pool.run actions).claims.get? who = some later) (names : later.slot? = some other) :
    other = slot := by
  have keeps := consistent.run_keeps
    (fun claim => ∃ state, claim = some state ∧ ∀ index, state.slot? = some index → index = slot)
    ?_ ⟨claim, known, fun index same => Option.some.inj (same.symm.trans about)⟩ actions
  · obtain ⟨state, same, only⟩ := keeps
    cases after.symm.trans same
    exact only other names
  · rintro _ _ _ _ ⟨state, rfl, only⟩ moves
    cases moves with
    | stays => exact ⟨state, rfl, only⟩
    | served => exact ⟨_, rfl, only⟩
    | closed => exact ⟨_, rfl, only⟩
    | _ => exact ⟨_, rfl, nofun⟩

end Consistent

/-! ## One caller after another -/

/-- Nobody holds a server. -/
def IsIdle (pool : Pool ι) : Prop :=
  ∀ who slot, pool.claims.get? who ≠ some (.leased slot true)

/-- A caller who asks for a server, and then ends its lease, perhaps more than once. -/
structure Visit (ι : Type) where
  who : ι
  endings : List (Action ι)
  some : endings ≠ []
  ends : ∀ action ∈ endings, action.Ends who

def Visit.actions (visit : Visit ι) : List (Action ι) :=
  .acquire visit.who :: visit.endings

/-- What callers are told who come one after another. -/
def visited (pool : Pool ι) : List (Visit ι) → List (Option PoolClaim)
  | [] => []
  | visit :: visits =>
    (pool.step (.acquire visit.who)).claims.get? visit.who ::
      (pool.run visit.actions).visited visits

omit [DecidableEq ι] in
theorem Visit.close_notMem_actions (visit : Visit ι) : .close ∉ visit.actions := by
  rintro (_ | ⟨_, member⟩)
  rcases visit.ends _ member with same | same <;> cases same

omit [DecidableEq ι] in
theorem Visit.eq_of_acquire_mem_actions {visit : Visit ι} {other : ι}
    (member : .acquire other ∈ visit.actions) : other = visit.who := by
  rcases List.mem_cons.mp member with same | later
  · exact Action.acquire.inj same
  · rcases visit.ends _ later with same | same <;> cases same

/-- Every visit is one more call. -/
theorem calls_append_visit {actions : List (Action ι)} {visit : Visit ι}
    (fresh : .acquire visit.who ∉ actions) :
    calls (actions ++ visit.actions) = calls actions + 1 := by
  have silent : visit.endings.filterMap Action.caller? = [] := by
    rw [List.filterMap_eq_nil_iff]
    intro action member
    rcases visit.ends action member with rfl | rfl <;> rfl
  have asks : visit.actions.filterMap Action.caller? = [visit.who] := by
    simp [Visit.actions, Action.caller?, silent]
  have unknown := mt mem_filterMap_caller?.mp fresh
  rw [calls, List.filterMap_append, asks, (List.perm_append_singleton _ _).dedup.length_eq,
    List.dedup_cons_of_notMem unknown, List.length_cons, calls]

namespace Consistent

variable {pool : Pool ι} {who : ι}

/-- Nobody waits where nobody holds a server. -/
theorem not_waiting_of_isIdle (consistent : pool.Consistent) (idle : pool.IsIdle) (other : ι)
    (slot : Nat) : pool.claims.get? other ≠ some (.waiting slot) := by
  intro waiting
  obtain ⟨_, holder, held⟩ := consistent.of_waiting waiting
  exact idle holder slot held

theorem free_of_isIdle (consistent : pool.Consistent) (idle : pool.IsIdle) {slot : Nat}
    (bound : slot < pool.size) : 0 < pool.freeAt slot := by
  rcases consistent.freeAt_eq bound with ⟨_, holder, held⟩ | ⟨free, _⟩
  · exact absurd held (idle holder slot)
  · omega

/-- Once the only caller with a server has given it back, nobody holds one. -/
theorem isIdle_step (consistent : pool.Consistent) {action : Action ι} (ends : action.Ends who)
    (alone : ∀ other slot, pool.claims.get? other = some (.leased slot true) → other = who)
    (unwanted : ∀ other slot, pool.claims.get? other ≠ some (.waiting slot)) :
    (pool.step action).IsIdle := by
  intro other slot held
  have moves := consistent.moves action other
  rw [held] at moves
  generalize before : pool.claims.get? other = claim at moves
  cases moves with
  | stays =>
      cases alone other slot before
      obtain ⟨claim, idle, same⟩ := step_of_ends before ends
      rw [same, consistent.get?_giveBack before, if_pos rfl] at held
      cases held
      cases idle
  | granted => rcases ends with same | same <;> cases same
  | served => exact unwanted other slot before

theorem isIdle_run (consistent : pool.Consistent) (idle : pool.IsIdle) {actions : List (Action ι)}
    (ends : ∀ action ∈ actions, action.Ends who) : (pool.run actions).IsIdle := by
  induction actions generalizing pool with
  | nil => exact idle
  | cons action actions ih =>
      refine ih (consistent.step action) ?_ fun later member =>
        ends later (List.mem_cons_of_mem _ member)
      exact consistent.isIdle_step (ends action List.mem_cons_self)
        (fun other slot held => absurd held (idle other slot))
        (consistent.not_waiting_of_isIdle idle)

/-- A visit leaves no lease behind. -/
theorem isIdle_run_visit (consistent : pool.Consistent) (idle : pool.IsIdle) {visit : Visit ι}
    (fresh : pool.claims.get? visit.who = none) : (pool.run visit.actions).IsIdle := by
  obtain ⟨claim, entered⟩ := claims_acquire fresh
  have asked := consistent.step (.acquire visit.who)
  have told (other : ι) : (pool.step (.acquire visit.who)).claims.get? other =
      if other = visit.who then some claim else pool.claims.get? other :=
    (congrArg (Claims.get? · other) entered).trans (Claims.get?_enter fresh claim other)
  have alone (other : ι) (slot : Nat)
      (held : (pool.step (.acquire visit.who)).claims.get? other = some (.leased slot true)) :
      other = visit.who := by
    by_contra different
    rw [told, if_neg different] at held
    exact idle other slot held
  have unwanted (other : ι) (slot : Nat) :
      (pool.step (.acquire visit.who)).claims.get? other ≠ some (.waiting slot) := by
    intro waiting
    obtain ⟨_, holder, held⟩ := asked.of_waiting waiting
    cases alone holder slot held
    by_cases same : other = visit.who
    · rw [same, held] at waiting
      cases waiting
    · rw [told, if_neg same] at waiting
      exact consistent.not_waiting_of_isIdle idle other slot waiting
  change ((pool.step (.acquire visit.who)).run visit.endings).IsIdle
  cases endings : visit.endings with
  | nil => exact absurd endings visit.some
  | cons first rest =>
      have ends {action : Action ι} (member : action ∈ first :: rest) : action.Ends visit.who :=
        visit.ends action (endings ▸ member)
      exact (asked.step first).isIdle_run
        (asked.isIdle_step (ends List.mem_cons_self) alone unwanted)
        fun action member => ends (List.mem_cons_of_mem _ member)

/-- In an idle pool a caller gets the slot at which it starts. -/
theorem get?_acquire_of_isIdle (consistent : pool.Consistent) (opened : pool.isClosed = false)
    (idle : pool.IsIdle) (some : 0 < pool.size) (fresh : pool.claims.get? who = none) :
    (pool.step (.acquire who)).claims.get? who = Option.some (.leased pool.start true) := by
  have bound := start_lt some
  have free : ∃ slot < pool.size, 0 < pool.freeAt slot :=
    ⟨pool.start, bound, consistent.free_of_isIdle idle bound⟩
  have nearest := consistent.nearest_choice opened free
  have start : pool.start = pool.choice := by
    by_contra different
    have nearer := nearest.least _ bound different (consistent.free_of_isIdle idle bound)
    rw [distance_self bound] at nearer
    cases nearer
  rw [consistent.get?_acquire_of_free opened fresh free, start]

end Consistent

/-- Callers who come one after another get the slots one after another. -/
theorem visited_run_of {endpoints : List Endpoint} (nonempty : endpoints ≠ [])
    {actions : List (Action ι)} (opened : .close ∉ actions)
    (idle : ((of endpoints).run actions).IsIdle) {visits : List (Visit ι)}
    (distinct : (visits.map Visit.who).Nodup)
    (fresh : ∀ visit ∈ visits, .acquire visit.who ∉ actions) :
    ((of endpoints).run actions).visited visits =
      (List.range visits.length).map fun count =>
        some (.leased ((calls actions + count) % UInt64.size % endpoints.length) true) := by
  induction visits generalizing actions with
  | nil => rfl
  | cons visit visits ih =>
      have consistent := (Consistent.of endpoints : (of endpoints : Pool ι).Consistent).run actions
      have some : 0 < ((of endpoints : Pool ι).run actions).size := by
        rw [(Consistent.of endpoints).size_run]
        simpa [of, size] using List.length_pos_iff.mpr nonempty
      have fresh_now := fresh visit List.mem_cons_self
      have unknown : ((of endpoints).run actions).claims.get? visit.who = none :=
        Claims.get?_eq_none_iff.mpr (mt (mem_names_run_of endpoints).mp fresh_now)
      have told := consistent.get?_acquire_of_isIdle
        (Bool.eq_false_iff.mpr (mt (isClosed_run_of nonempty).mp opened)) idle some unknown
      obtain ⟨other, distinct⟩ := List.nodup_cons.mp distinct
      have later := @ih (actions ++ visit.actions)
        (by simp [opened, visit.close_notMem_actions])
        (by rw [run_append]; exact consistent.isIdle_run_visit idle unknown) distinct ?_
      · rw [visited, told, start_run_of nonempty, ← run_append, later, List.length_cons,
          List.range_succ_eq_map, List.map_cons, List.map_map, calls_append_visit fresh_now]
        simp [Function.comp_def, Nat.add_right_comm, Nat.add_assoc]
      · intro next member asked
        rcases List.mem_append.mp asked with before | now
        · exact fresh next (List.mem_cons_of_mem _ member) before
        · exact other (Visit.eq_of_acquire_mem_actions now ▸ List.mem_map_of_mem member)

/-! ## The laws of rotation -/

/-- How callers fare who come to a pool of these servers after these actions. -/
structure TakesTurns (endpoints : List Endpoint) (actions : List (Action ι)) (pool : Pool ι) :
    Prop where
  /-- The number of the callers before, whatever became of them, says where the next one starts. -/
  start : pool.start = calls actions % UInt64.size % endpoints.length
  /-- The next caller goes round the slots and looks at none twice. -/
  inOrder : pool.looks.Pairwise fun first second =>
    distance endpoints.length pool.start first < distance endpoints.length pool.start second
  /-- It looks at a slot if all slots before it on the way are taken. -/
  looksAt : ∀ {slot : Nat}, slot ∈ pool.looks ↔ slot < endpoints.length ∧
    ∀ nearer < endpoints.length,
      distance endpoints.length pool.start nearer < distance endpoints.length pool.start slot →
        pool.freeAt nearer = 0
  /-- It looks at every slot once if all are taken. -/
  looksAtAll : (∀ slot < endpoints.length, pool.freeAt slot = 0) →
    pool.looks.Perm (List.range endpoints.length)
  /-- A caller gets the free slot at the least distance from its start at once. -/
  obtains : (∃ slot < endpoints.length, 0 < pool.freeAt slot) → ∃ slot, slot < endpoints.length ∧
    0 < pool.freeAt slot ∧
      (∀ other < endpoints.length, other ≠ slot → 0 < pool.freeAt other →
        distance endpoints.length pool.start slot < distance endpoints.length pool.start other) ∧
        ∀ who, .acquire who ∉ actions →
          (pool.step (.acquire who)).claims.get? who = some (.leased slot true)
  /-- If all slots are taken it waits for the one at which it starts, and gets no other ever. -/
  waits : (∀ slot < endpoints.length, pool.freeAt slot = 0) → ∀ who, .acquire who ∉ actions →
    (pool.step (.acquire who)).claims.get? who = some (.waiting pool.start) ∧
      ∀ (more : List (Action ι)) (claim : PoolClaim) (slot : Nat),
        ((pool.step (.acquire who)).run more).claims.get? who = some claim →
          claim.slot? = some slot → slot = pool.start
  /-- Callers who come one after another when nobody else holds a server get the next slots. -/
  visited : pool.IsIdle → ∀ visits : List (Visit ι), (visits.map Visit.who).Nodup →
    (∀ visit ∈ visits, .acquire visit.who ∉ actions) →
      pool.visited visits = (List.range visits.length).map fun count =>
        some (.leased ((calls actions + count) % UInt64.size % endpoints.length) true)
  /-- Until the count of callers wraps they go round the servers without leaving one out. -/
  rotates : pool.IsIdle → ∀ visits : List (Visit ι), (visits.map Visit.who).Nodup →
    (∀ visit ∈ visits, .acquire visit.who ∉ actions) →
      calls actions + visits.length ≤ UInt64.size →
        pool.visited visits = (List.range visits.length).map fun count =>
          some (.leased ((calls actions + count) % endpoints.length) true)

/-- At every open pool of servers callers take turns. -/
theorem takesTurns_run {endpoints : List Endpoint} (nonempty : endpoints ≠ [])
    {actions : List (Action ι)} (opened : .close ∉ actions) :
    TakesTurns endpoints actions ((of endpoints).run actions) := by
  have consistent := (Consistent.of endpoints : (of endpoints : Pool ι).Consistent).run actions
  have isOpen := Bool.eq_false_iff.mpr (mt (isClosed_run_of nonempty).mp opened)
  have size : ((of endpoints : Pool ι).run actions).size = endpoints.length := by
    rw [(Consistent.of endpoints).size_run]
    exact List.length_map _
  have some : 0 < ((of endpoints : Pool ι).run actions).size :=
    size ▸ List.length_pos_iff.mpr nonempty
  have unknown {who : ι} (fresh : .acquire who ∉ actions) :
      ((of endpoints).run actions).claims.get? who = none :=
    Claims.get?_eq_none_iff.mpr (mt (mem_names_run_of endpoints).mp fresh)
  constructor
  case start => exact start_run_of nonempty actions
  case inOrder => exact size ▸ pairwise_looks _
  case looksAt => exact size ▸ consistent.mem_looks isOpen
  case looksAtAll => exact size ▸ consistent.perm_looks isOpen
  case visited => exact fun idle visits => visited_run_of nonempty opened idle
  case obtains =>
    rw [← size]
    intro free
    obtain ⟨bound, vacant, least⟩ := consistent.nearest_choice isOpen free
    refine ⟨_, bound, vacant, least, fun who fresh => ?_⟩
    exact consistent.get?_acquire_of_free isOpen (unknown fresh) free
  case waits =>
    rw [← size]
    intro taken who fresh
    have waiting := consistent.get?_acquire_of_taken isOpen (unknown fresh) some taken
    refine ⟨waiting, fun more claim slot known about => ?_⟩
    exact (consistent.step _).slot_of_run waiting rfl more known about
  case rotates =>
    intro idle visits distinct fresh few
    rw [visited_run_of nonempty opened idle distinct fresh]
    refine List.map_congr_left fun count member => ?_
    have within : calls actions + count < UInt64.size :=
      Nat.lt_of_lt_of_le (Nat.add_lt_add_left (List.mem_range.mp member) _) few
    rw [Nat.mod_eq_of_lt within]

/-- Three servers, of which the second is free when the fourth caller comes. -/
theorem takesTurns_run_three :
    [Endpoint.fallback, .fallback, .fallback] ≠ [] ∧
      .close ∉ ([.acquire 0, .acquire 1, .acquire 2, .closeLease 1] : List (Action Nat)) ∧
        TakesTurns [.fallback, .fallback, .fallback]
          ([.acquire 0, .acquire 1, .acquire 2, .closeLease 1] : List (Action Nat))
          ((of [.fallback, .fallback, .fallback]).run
            [.acquire 0, .acquire 1, .acquire 2, .closeLease 1]) :=
  ⟨by simp, by simp, takesTurns_run (by simp) (by simp)⟩

end Turnstile.Pool
