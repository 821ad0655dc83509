import Mathlib.Data.List.Induction
import Turnstile.Proofs.Pool.Moves

/-!
# The life of leases

Over every run of a pool a slot belongs to one lease at a time, whoever waits is
served in order of arrival, and a lease that has been given back stays so.
-/

namespace Turnstile

namespace PoolClaim

/-- A claim of a caller who got a lease, whatever became of it. -/
def isServed : PoolClaim → Bool
  | .leased _ _ => true
  | .dropped => true
  | _ => false

/-- A claim of a caller who got a lease or stopped waiting for it. -/
def isThrough (claim : PoolClaim) : Bool :=
  claim.isServed || claim == .cancelled

end PoolClaim

namespace Pool

variable {ι : Type} [DecidableEq ι]

/-! ## Claims that are settled -/

namespace Consistent

variable {pool : Pool ι}

/-- What no action takes from the claim of a caller, a run does not take either. -/
theorem run_keeps (consistent : pool.Consistent) {who : ι} (holds : Option PoolClaim → Prop)
    (keeps : ∀ (pool : Pool ι) (action : Action ι) (claim after : Option PoolClaim),
      holds claim → pool.Moves who action claim after → holds after)
    (start : holds (pool.claims.get? who)) (actions : List (Action ι)) :
    holds ((pool.run actions).claims.get? who) := by
  induction actions generalizing pool with
  | nil => exact start
  | cons action actions ih =>
      exact ih (consistent.step action) (keeps _ _ _ _ start (consistent.moves action who))

theorem run_cancelled (consistent : pool.Consistent) {who : ι}
    (cancelled : pool.claims.get? who = some .cancelled) (actions : List (Action ι)) :
    (pool.run actions).claims.get? who = some .cancelled := by
  refine consistent.run_keeps (· = some .cancelled) ?_ cancelled actions
  rintro _ _ _ _ rfl ⟨⟩
  rfl

theorem run_interrupted (consistent : pool.Consistent) {who : ι}
    (interrupted : pool.claims.get? who = some .interrupted) (actions : List (Action ι)) :
    (pool.run actions).claims.get? who = some .interrupted := by
  refine consistent.run_keeps (· = some .interrupted) ?_ interrupted actions
  rintro _ _ _ _ rfl ⟨⟩
  rfl

/-- Who neither waits nor holds a server never holds one again. -/
theorem run_idle (consistent : pool.Consistent) {who : ι}
    (idle : (pool.claims.get? who).any PoolClaim.isIdle = true) (actions : List (Action ι))
    (slot : Nat) : (pool.run actions).claims.get? who ≠ some (.leased slot true) := by
  have stays := consistent.run_keeps (·.any PoolClaim.isIdle = true)
    (fun _ _ _ _ was moves => by cases moves <;> first | exact was | rfl) idle actions
  intro held
  rw [held] at stays
  cases stays

/-- Who has been served, or has given up, does not come back into a line. -/
theorem run_through (consistent : pool.Consistent) {who : ι}
    (through : (pool.claims.get? who).any PoolClaim.isThrough = true) (actions : List (Action ι)) :
    ((pool.run actions).claims.get? who).any PoolClaim.isThrough = true :=
  consistent.run_keeps (·.any PoolClaim.isThrough = true)
    (fun _ _ _ _ was moves => by cases moves <;> first | exact was | rfl) through actions

/-! ## The order of arrival -/

theorem get?_step_eq_none_iff (consistent : pool.Consistent) {action : Action ι} {who : ι} :
    (pool.step action).claims.get? who = none ↔
      pool.claims.get? who = none ∧ action ≠ .acquire who := by
  have moves := consistent.moves action who
  constructor
  · intro absent
    rw [absent] at moves
    generalize fresh : pool.claims.get? who = claim at moves
    cases moves
    refine ⟨rfl, ?_⟩
    rintro rfl
    obtain ⟨claim, entered⟩ := claims_acquire fresh
    simp [Pool.step, entered, Claims.get?_enter fresh] at absent
  · rintro ⟨fresh, other⟩
    rw [fresh] at moves
    generalize (pool.step action).claims.get? who = after at moves
    cases moves with
    | stays => rfl
    | _ => exact absurd rfl other

theorem get?_run_eq_none_iff (consistent : pool.Consistent) {actions : List (Action ι)} {who : ι} :
    (pool.run actions).claims.get? who = none ↔
      pool.claims.get? who = none ∧ .acquire who ∉ actions := by
  induction actions generalizing pool with
  | nil => simp [Pool.run]
  | cons action actions ih =>
      change ((pool.step action).run actions).claims.get? who = none ↔ _
      rw [ih (consistent.step action), consistent.get?_step_eq_none_iff, List.mem_cons, not_or,
        and_assoc, ne_comm]

theorem names_run (consistent : pool.Consistent) (actions : List (Action ι)) :
    pool.claims.names <+: (pool.run actions).claims.names := by
  induction actions generalizing pool with
  | nil => exact List.prefix_rfl
  | cons action actions ih =>
      exact (consistent.names_step action).trans (ih (consistent.step action))

end Consistent

/-- Of two callers, one had asked for a lease when the other had not. -/
def ArrivedBefore (actions : List (Action ι)) (first second : ι) : Prop :=
  ∃ earlier later : List (Action ι),
    actions = earlier ++ later ∧ .acquire first ∈ earlier ∧ .acquire second ∉ earlier

omit [DecidableEq ι] in
/-- In a list without repetition two entries stand in one order only. -/
theorem not_sublist_swap {names : List ι} (distinct : names.Nodup) {first second : ι}
    (order : [first, second].Sublist names) : ¬ [second, first].Sublist names := by
  induction names with
  | nil => cases order
  | cons name names ih =>
      obtain ⟨fresh, distinct⟩ := List.nodup_cons.mp distinct
      intro swapped
      cases order with
      | cons _ order =>
          cases swapped with
          | cons _ swapped => exact ih distinct order swapped
          | cons_cons _ last => exact fresh (order.subset (by simp))
      | cons_cons _ last =>
          cases swapped with
          | cons _ swapped => exact fresh (swapped.subset (by simp))
          | cons_cons _ last => exact fresh (last.subset (by simp))

section Arrival

variable (endpoints : List Endpoint) {actions : List (Action ι)}

theorem mem_names_run_of {who : ι} :
    who ∈ ((of endpoints).run actions).claims.names ↔ .acquire who ∈ actions := by
  rw [← not_iff_not, ← Claims.get?_eq_none_iff, (Consistent.of endpoints).get?_run_eq_none_iff]
  simp [of]

theorem ArrivedBefore.sublist_names {first second : ι}
    (arrived : ArrivedBefore actions first second)
    (known : .acquire second ∈ actions) :
    [first, second].Sublist ((of endpoints).run actions).claims.names := by
  obtain ⟨earlier, later, rfl, came, absent⟩ := arrived
  have consistent := (Consistent.of endpoints : (of endpoints : Pool ι).Consistent).run earlier
  obtain ⟨more, names⟩ := consistent.names_run later
  rw [← run_append] at names
  have came := (mem_names_run_of endpoints).mpr came
  have absent := mt (mem_names_run_of endpoints).mp absent
  have known := (mem_names_run_of endpoints).mpr known
  rw [← names] at known ⊢
  have late := (List.mem_append.mp known).resolve_left absent
  exact (List.singleton_sublist.mpr came).append (List.singleton_sublist.mpr late)

/-- Up to the moment at which a caller asks, the callers are those who asked before. -/
theorem exists_acquire {who : ι} (known : .acquire who ∈ actions) :
    ∃ earlier later : List (Action ι),
      actions = earlier ++ .acquire who :: later ∧ .acquire who ∉ earlier ∧
        ∃ more, ((of endpoints).run actions).claims.names =
          ((of endpoints).run earlier).claims.names ++ who :: more := by
  obtain ⟨earlier, later, rfl, absent⟩ := List.eq_append_cons_of_mem known
  refine ⟨earlier, later, rfl, absent, ?_⟩
  have consistent := (Consistent.of endpoints : (of endpoints : Pool ι).Consistent).run earlier
  have fresh := Claims.get?_eq_none_iff.mpr
    (mt (mem_names_run_of endpoints).mp absent)
  obtain ⟨claim, entered⟩ := claims_acquire fresh
  obtain ⟨more, names⟩ := (consistent.step (.acquire who)).names_run later
  refine ⟨more, ?_⟩
  rw [run_append]
  change (((((of endpoints).run earlier).step (.acquire who)).run later).claims.names) = _
  rw [← names]
  simp [Pool.step, entered]

theorem arrivedBefore_of_sublist_names {first second : ι}
    (order : [first, second].Sublist ((of endpoints).run actions).claims.names) :
    ArrivedBefore actions first second := by
  have start : (of endpoints : Pool ι).Consistent := .of endpoints
  have distinct := (start.run actions).distinct
  have last : second ∈ [first, second] := List.mem_cons_of_mem _ List.mem_cons_self
  have known := (mem_names_run_of endpoints).mp (order.subset last)
  obtain ⟨earlier, later, split, absent, more, names⟩ := exists_acquire endpoints known
  refine ⟨earlier, _, split, ?_, absent⟩
  by_contra missing
  have missing := mt (mem_names_run_of endpoints).mp missing
  rw [names] at order distinct
  have late : first ∈ more := by
    have member := order.subset List.mem_cons_self
    have pair := distinct.sublist order
    simp only [List.mem_append, missing, List.mem_cons, false_or] at member
    exact member.resolve_left (by rintro rfl; simp at pair)
  refine not_sublist_swap distinct order (List.Sublist.trans ?_ (List.sublist_append_right _ _))
  exact (List.singleton_sublist.mpr late).cons_cons second

end Arrival

/-! ## Waiting in line -/

section Line

variable {pool : Pool ι} {first second : ι} {slot : Nat}

/-- The first in line came before everyone else in line. -/
theorem Consistent.sublist_names_of_head (consistent : pool.Consistent)
    (head : (pool.line slot).head? = some first)
    (waiting : pool.claims.get? second = some (.waiting slot)) (other : second ≠ first) :
    [first, second].Sublist pool.claims.names := by
  refine List.Sublist.trans ?_ (Claims.having_sublist (fun claim => claim = .waiting slot) _)
  have member := consistent.mem_line.mpr waiting
  change [first, second].Sublist (pool.line slot)
  cases waits : pool.line slot with
  | nil => simp [waits] at head
  | cons name rest =>
      rw [waits] at head member
      cases head
      have behind := (List.mem_cons.mp member).resolve_left other
      exact (List.singleton_sublist.mpr behind).cons_cons first

/-- How two callers stand to each other of whom one has come before the other for a slot. -/
inductive InTurn (pool : Pool ι) (slot : Nat) (first second : ι) : Prop where
  | through (passed : (pool.claims.get? first).any PoolClaim.isThrough = true)
  | gone (unserved : pool.claims.get? second = some .cancelled ∨
      pool.claims.get? second = some .interrupted)
  | queued (ahead : pool.claims.get? first = some (.waiting slot))
      (behind : pool.claims.get? second = some (.waiting slot))
      (order : [first, second].Sublist pool.claims.names)

theorem Consistent.inTurn_step (consistent : pool.Consistent) (turn : InTurn pool slot first second)
    (action : Action ι) : InTurn (pool.step action) slot first second := by
  cases turn with
  | through passed => exact .through (consistent.run_through passed [action])
  | gone unserved =>
      refine .gone (unserved.imp ?_ ?_)
      · exact fun cancelled => consistent.run_cancelled cancelled [action]
      · exact fun interrupted => consistent.run_interrupted interrupted [action]
  | queued ahead behind order =>
      have one := consistent.moves action first
      have other := consistent.moves action second
      rw [ahead] at one
      rw [behind] at other
      have order_after := order.trans (consistent.names_step action).sublist
      generalize first_after : (pool.step action).claims.get? first = one_after at one
      generalize second_after : (pool.step action).claims.get? second = other_after at other
      cases one with
      | served ends head => exact .through (first_after ▸ rfl)
      | left => exact .through (first_after ▸ rfl)
      | sentAway =>
          cases other with
          | stays =>
              have waits := consistent.close.mem_line.mpr second_after
              rw [line_close] at waits
              cases waits
          | served ends head => rcases ends with ends | ends <;> cases ends
          | sentAway => exact .gone (.inr second_after)
      | stays =>
          cases other with
          | stays => exact .queued first_after second_after order_after
          | served ends head =>
              have different : first ≠ second := by
                rintro rfl
                rw [first_after] at second_after
                cases second_after
              exact absurd (consistent.sublist_names_of_head head ahead different)
                (not_sublist_swap consistent.distinct order)
          | left => exact .gone (.inl second_after)
          | sentAway => exact .gone (.inr second_after)

/-- Whoever came first for a slot is through once the other has been served. -/
theorem Consistent.inTurn_run (consistent : pool.Consistent) (turn : InTurn pool slot first second)
    (actions : List (Action ι)) : InTurn (pool.run actions) slot first second := by
  induction actions generalizing pool with
  | nil => exact turn
  | cons action actions ih =>
      exact ih (consistent.step action) (consistent.inTurn_step turn action)

theorem InTurn.through_of_served (turn : InTurn pool slot first second)
    (served : (pool.claims.get? second).any PoolClaim.isServed = true) :
    (pool.claims.get? first).any PoolClaim.isThrough = true := by
  cases turn with
  | through passed => exact passed
  | gone unserved =>
      rcases unserved with unserved | unserved <;>
        simp [unserved, PoolClaim.isServed] at served
  | queued ahead behind order => simp [behind, PoolClaim.isServed] at served

end Line

/-! ## What a run leaves -/

section Run

variable {endpoints : List Endpoint} {actions : List (Action ι)}

/-- Whoever waits was told so when it asked, and waits where it started to look. -/
theorem exists_acquire_of_waiting {who : ι} {slot : Nat}
    (waiting : ((of endpoints).run actions).claims.get? who = some (.waiting slot)) :
    ∃ earlier later : List (Action ι),
      actions = earlier ++ .acquire who :: later ∧ .acquire who ∉ earlier ∧
        slot = ((of endpoints).run earlier).start := by
  induction actions using List.reverseRecOn with
  | nil => cases waiting
  | append_singleton actions action ih =>
      have consistent := (Consistent.of endpoints : (of endpoints : Pool ι).Consistent).run actions
      rw [run_concat] at waiting
      have moves := consistent.moves action who
      rw [waiting] at moves
      generalize before : ((of endpoints).run actions).claims.get? who = claim at moves
      cases moves with
      | stays =>
          obtain ⟨earlier, later, split, absent, start⟩ := ih before
          exact ⟨earlier, later ++ [action], by simp [split], absent, start⟩
      | queued opened =>
          have absent := ((Consistent.of endpoints).get?_run_eq_none_iff.mp before).2
          exact ⟨actions, [], rfl, absent, rfl⟩

theorem Consistent.size_run {pool : Pool ι} (consistent : pool.Consistent)
    (actions : List (Action ι)) : (pool.run actions).size = pool.size := by
  induction actions generalizing pool with
  | nil => rfl
  | cons action actions ih =>
      exact (ih (consistent.step action)).trans (consistent.size_step action)

theorem Consistent.isClosed_run {pool : Pool ι} (consistent : pool.Consistent)
    (some : 0 < pool.size) :
    (pool.run actions).isClosed = true ↔ pool.isClosed = true ∨ .close ∈ actions := by
  induction actions generalizing pool with
  | nil => simp [Pool.run]
  | cons action actions ih =>
      change ((pool.step action).run actions).isClosed = true ↔ _
      rw [ih (consistent.step action) ((consistent.size_step action).symm ▸ some),
        consistent.isClosed_step some, List.mem_cons, or_assoc, @eq_comm _ action]

theorem isClosed_run_of (nonempty : endpoints ≠ []) :
    ((of endpoints).run actions).isClosed = true ↔ .close ∈ actions := by
  have opened : (of endpoints : Pool ι).isClosed = false := by simp [isClosed, of, Slot.of]
  have some : 0 < (of endpoints : Pool ι).size := by
    simpa [of, size] using List.length_pos_iff.mpr nonempty
  rw [(Consistent.of endpoints).isClosed_run some, opened]
  simp

end Run

/-! ## The laws of leasing -/

/-- Free permits of a slot. -/
def freeAt (pool : Pool ι) (index : Nat) : Nat :=
  (pool.slots[index]?).elim 0 fun slot => slot.semaphore.free

section Caller

variable {pool : Pool ι} {who : ι} {slot : Nat}

/-- A caller who ends its lease gives its server back. -/
theorem step_of_ends (held : pool.claims.get? who = some (.leased slot true)) {action : Action ι}
    (ends : action.Ends who) :
    ∃ claim : PoolClaim, claim.isIdle = true ∧ pool.step action = pool.giveBack who slot claim := by
  rcases ends with rfl | rfl
  · exact ⟨_, rfl, closeLease_of_leased held⟩
  · exact ⟨_, rfl, drop_of_leased held⟩

theorem slots_of_spent (spare : pool.claims.get? who = some (.leased slot false) ∨
    pool.claims.get? who = some .dropped) {action : Action ι} (ends : action.Ends who) :
    (pool.step action).slots = pool.slots ∧ ∀ other, other ≠ who →
      (pool.step action).claims.get? other = pool.claims.get? other := by
  have idle : ∀ index, pool.claims.get? who ≠ some (.leased index true) := by
    rcases spare with spare | spare <;> simp [spare]
  rcases ends with rfl | rfl
  · simp [Pool.step, closeLease_of_not_leased idle]
  · rcases drop_of_not_leased idle with same | ⟨_, same⟩
    · simp [Pool.step, same]
    · simp only [Pool.step, same]
      exact ⟨rfl, fun other different => Claims.get?_set_of_ne different _ _⟩

theorem get?_close_of_waiting (waiting : pool.claims.get? who = some (.waiting slot)) :
    (pool.step .close).claims.get? who = some .interrupted := by
  simp [Pool.step, Pool.close, Claims.get?_mapStates, waiting]

namespace Consistent

theorem freeAt_eq (consistent : pool.Consistent) (bound : slot < pool.size) :
    (pool.freeAt slot = 0 ∧ ∃ who, pool.claims.get? who = some (.leased slot true)) ∨
      (pool.freeAt slot = 1 ∧ ∀ who, pool.claims.get? who ≠ some (.leased slot true)) := by
  obtain ⟨state, found⟩ := exists_slot bound
  have here : pool.freeAt slot = state.semaphore.free := by simp [freeAt, found]
  have balance := consistent.free_of_slot found
  rw [here]
  rcases Nat.eq_zero_or_pos state.semaphore.free with busy | free
  · exact .inl ⟨busy, consistent.exists_holder found busy⟩
  · refine .inr ⟨by omega, ?_⟩
    intro who held
    have some := List.length_pos_of_mem (consistent.mem_holders.mpr held)
    omega

theorem freeAt_of_ends (consistent : pool.Consistent)
    (held : pool.claims.get? who = some (.leased slot true)) {action : Action ι}
    (ends : action.Ends who) (unwanted : ∀ other, pool.claims.get? other ≠ some (.waiting slot)) :
    (pool.step action).freeAt slot = 1 ∧ ∀ other, other ≠ who →
      (pool.step action).claims.get? other = pool.claims.get? other := by
  have empty : pool.line slot = [] :=
    List.eq_nil_iff_forall_not_mem.mpr fun other member =>
      unwanted other (consistent.mem_line.mp member)
  have bound := consistent.placed held rfl
  have after := consistent.step action
  obtain ⟨claim, idle, same⟩ := step_of_ends held ends
  have others : ∀ other, other ≠ who →
      (pool.step action).claims.get? other = pool.claims.get? other := by
    intro other different
    rw [same, consistent.get?_giveBack held, if_neg different, empty]
    simp
  refine ⟨?_, others⟩
  rcases after.freeAt_eq ((consistent.size_step action).symm ▸ bound) with ⟨_, other, taken⟩ | free
  · -- Whoever holds the slot afterwards held it before, or is the caller whose lease has ended.
    by_cases different : other = who
    · rw [different, same, consistent.get?_giveBack held, if_pos rfl] at taken
      cases taken
      cases idle
    · rw [others other different] at taken
      exact absurd (consistent.eq_of_leased taken held) different
  · exact free.1

theorem claims_cancel (consistent : pool.Consistent)
    (waiting : pool.claims.get? who = some (.waiting slot)) :
    (pool.step (.cancel who)).claims = pool.claims.set who .cancelled := by
  obtain ⟨state, found⟩ := exists_slot (consistent.placed waiting rfl)
  simp [Pool.step, cancel_of_waiting waiting found]

theorem kept_of_not_ends (consistent : pool.Consistent)
    (held : pool.claims.get? who = some (.leased slot true)) {action : Action ι}
    (other : ¬ action.Ends who) :
    (pool.step action).claims.get? who = some (.leased slot true) := by
  have moves := consistent.moves action who
  rw [held] at moves
  generalize (pool.step action).claims.get? who = after at moves
  cases moves with
  | stays => rfl
  | closed => exact absurd (.inl rfl) other
  | dropped => exact absurd (.inr rfl) other

theorem refused_of_closed (consistent : pool.Consistent) (some : 0 < pool.size)
    (closed : pool.isClosed = true) (fresh : pool.claims.get? who = none) :
    (pool.step (.acquire who)).claims.get? who = Option.some .interrupted := by
  have moves := consistent.moves (.acquire who) who
  have known : (pool.step (.acquire who)).claims.get? who ≠ none :=
    fun absent => (consistent.get?_step_eq_none_iff.mp absent).2 rfl
  rw [fresh] at moves
  generalize (pool.step (.acquire who)).claims.get? who = after at moves known
  cases moves with
  | stays => exact absurd rfl known
  | refused => rfl
  | granted opened => simp [closed] at opened
  | queued opened => simp [closed] at opened
  | pretended empty => omega

/-- A lease that ends goes to the first in line, and nobody else is told anything. -/
theorem handedOver (consistent : pool.Consistent) {first : ι} {action : Action ι}
    (held : pool.claims.get? who = some (.leased slot true)) (ends : action.Ends who)
    (apart : first ≠ who) (head : (pool.line slot).head? = some first) :
    (pool.step action).claims.get? first = some (.leased slot true) ∧
      ∀ other, other ≠ who → other ≠ first →
        (pool.step action).claims.get? other = pool.claims.get? other := by
  obtain ⟨claim, -, same⟩ := step_of_ends held ends
  rw [same]
  constructor
  · rw [consistent.get?_giveBack held, if_neg apart, if_pos head]
  · intro other different later
    rw [consistent.get?_giveBack held, if_neg different, head,
      if_neg (fun same => later (Option.some.inj same).symm)]

/-- Somebody is first in a line that is not empty. -/
theorem exists_head (consistent : pool.Consistent)
    (waiting : pool.claims.get? who = some (.waiting slot)) :
    ∃ first, (pool.line slot).head? = some first ∧
      pool.claims.get? first = some (.waiting slot) := by
  cases waits : pool.line slot with
  | nil => exact absurd (consistent.mem_line.mpr waiting) (waits ▸ List.not_mem_nil)
  | cons first rest => exact ⟨first, rfl, consistent.mem_line.mp (waits ▸ List.mem_cons_self)⟩

end Consistent

/-- Nobody else can be the head of the line, for that caller would have come before. -/
theorem head?_line_of_earliest (endpoints : List Endpoint) {actions : List (Action ι)} {first : ι}
    (ahead : ((of endpoints).run actions).claims.get? first = some (.waiting slot))
    (earliest : ∀ other, other ≠ first →
      ((of endpoints).run actions).claims.get? other = some (.waiting slot) →
        ArrivedBefore actions first other) :
    (((of endpoints).run actions).line slot).head? = some first := by
  have start : (of endpoints : Pool ι).Consistent := .of endpoints
  have consistent := start.run actions
  obtain ⟨name, head, waiting⟩ := consistent.exists_head ahead
  rw [head]
  by_contra different
  have other : name ≠ first := fun same => different (congrArg some same)
  have asked := (mem_names_run_of endpoints).mp (Claims.mem_names_of_get? waiting)
  have order := (earliest name other waiting).sublist_names endpoints asked
  refine not_sublist_swap consistent.distinct order ?_
  exact consistent.sublist_names_of_head head ahead other.symm

end Caller

/-- What holds of a pool of these servers after these actions, whatever happens next. -/
structure Orderly (endpoints : List Endpoint) (actions : List (Action ι)) (pool : Pool ι) :
    Prop where
  /-- A slot is held by one open lease at most. -/
  exclusive : ∀ {first second : ι} {slot : Nat},
    pool.claims.get? first = some (.leased slot true) →
      pool.claims.get? second = some (.leased slot true) → first = second
  /-- A slot that is not free is held by somebody, and one that is free by nobody. -/
  accounted : ∀ {slot : Nat}, slot < endpoints.length →
    (pool.freeAt slot = 0 ∧ ∃ who, pool.claims.get? who = some (.leased slot true)) ∨
      (pool.freeAt slot = 1 ∧ ∀ who, pool.claims.get? who ≠ some (.leased slot true))
  /-- Who waits does so at an open pool, for a slot that is held. -/
  owed : ∀ {who : ι} {slot : Nat}, pool.claims.get? who = some (.waiting slot) →
    .close ∉ actions ∧ ∃ holder, pool.claims.get? holder = some (.leased slot true)
  /-- Who waits does so for the slot at which it started to look. -/
  started : ∀ {who : ι} {slot : Nat}, pool.claims.get? who = some (.waiting slot) →
    ∃ earlier later : List (Action ι),
      actions = earlier ++ .acquire who :: later ∧ .acquire who ∉ earlier ∧
        slot = ((of endpoints).run earlier).start
  /-- Of two who wait for one slot the later is not served before the earlier is through. -/
  inTurn : ∀ {first second : ι} {slot : Nat}, ArrivedBefore actions first second →
    pool.claims.get? first = some (.waiting slot) →
      pool.claims.get? second = some (.waiting slot) → ∀ more : List (Action ι),
        ((pool.run more).claims.get? second).any PoolClaim.isServed = true →
          ((pool.run more).claims.get? first).any PoolClaim.isThrough = true
  /-- If anybody waits for a slot, somebody came first. -/
  headed : ∀ {who : ι} {slot : Nat}, pool.claims.get? who = some (.waiting slot) →
    ∃ first, pool.claims.get? first = some (.waiting slot) ∧ ∀ other, other ≠ first →
      pool.claims.get? other = some (.waiting slot) → ArrivedBefore actions first other
  /-- A lease that ends goes to whoever came first for its slot. -/
  handedOver : ∀ {holder first : ι} {slot : Nat} {action : Action ι},
    pool.claims.get? holder = some (.leased slot true) → action.Ends holder →
      pool.claims.get? first = some (.waiting slot) →
        (∀ other, other ≠ first → pool.claims.get? other = some (.waiting slot) →
          ArrivedBefore actions first other) →
          (pool.step action).claims.get? first = some (.leased slot true) ∧
            ∀ other, other ≠ holder → other ≠ first →
              (pool.step action).claims.get? other = pool.claims.get? other
  /-- A lease that ends leaves its slot free if nobody waits for it. -/
  freed : ∀ {holder : ι} {slot : Nat} {action : Action ι},
    pool.claims.get? holder = some (.leased slot true) → action.Ends holder →
      (∀ who, pool.claims.get? who ≠ some (.waiting slot)) →
        (pool.step action).freeAt slot = 1 ∧ ∀ other, other ≠ holder →
          (pool.step action).claims.get? other = pool.claims.get? other
  /-- A lease that was closed stays with its caller, who may drop it. -/
  closed : ∀ {who : ι} {slot : Nat}, pool.claims.get? who = some (.leased slot true) →
    (pool.step (.closeLease who)).claims.get? who = some (.leased slot false) ∧
      (pool.step (.drop who)).claims.get? who = some .dropped
  /-- A lease that was closed or dropped gives nothing back a second time. -/
  spent : ∀ {who : ι} {slot : Nat}, (pool.claims.get? who = some (.leased slot false) ∨
    pool.claims.get? who = some .dropped) → ∀ {action : Action ι}, action.Ends who →
      (pool.step action).slots = pool.slots ∧ ∀ other, other ≠ who →
        (pool.step action).claims.get? other = pool.claims.get? other
  /-- A lease that was closed or dropped holds no slot in all that follows. -/
  keepsNone : ∀ {who : ι} {slot : Nat}, (pool.claims.get? who = some (.leased slot false) ∨
    pool.claims.get? who = some .dropped) → ∀ (more : List (Action ι)) (other : Nat),
      (pool.run more).claims.get? who ≠ some (.leased other true)
  /-- Only its own caller ends a lease, before the pool is closed and after. -/
  kept : ∀ {who : ι} {slot : Nat} {action : Action ι},
    pool.claims.get? who = some (.leased slot true) → ¬ action.Ends who →
      (pool.step action).claims.get? who = some (.leased slot true)
  /-- Who stops waiting gets nothing in all that follows, and nobody else is told otherwise. -/
  withdrawn : ∀ {who : ι} {slot : Nat}, pool.claims.get? who = some (.waiting slot) →
    (∀ more : List (Action ι),
      (pool.run (.cancel who :: more)).claims.get? who = some .cancelled) ∧
        ∀ other, other ≠ who →
          (pool.step (.cancel who)).claims.get? other = pool.claims.get? other
  /-- Who waits is sent away when the pool is closed. -/
  sentAway : ∀ {who : ι} {slot : Nat}, pool.claims.get? who = some (.waiting slot) →
    ∀ more : List (Action ι), (pool.run (.close :: more)).claims.get? who = some .interrupted
  /-- Who comes once the pool is closed is sent away. -/
  refused : .close ∈ actions → ∀ {who : ι}, .acquire who ∉ actions →
    ∀ more : List (Action ι), (pool.run (.acquire who :: more)).claims.get? who = some .interrupted

/-- Every run of a pool of servers is orderly. -/
theorem orderly_run {endpoints : List Endpoint} (nonempty : endpoints ≠ [])
    (actions : List (Action ι)) : Orderly endpoints actions ((of endpoints).run actions) := by
  have start : (of endpoints : Pool ι).Consistent := .of endpoints
  have consistent := start.run actions
  have size : ((of endpoints : Pool ι).run actions).size = endpoints.length := by
    rw [start.size_run]
    exact List.length_map _
  have some : 0 < ((of endpoints : Pool ι).run actions).size :=
    size ▸ List.length_pos_iff.mpr nonempty
  -- Whoever waits has asked, so that the order of arrival is the order in which callers are listed.
  have asked {who : ι} {slot : Nat}
      (waiting : ((of endpoints).run actions).claims.get? who = Option.some (.waiting slot)) :
      .acquire who ∈ actions :=
    (mem_names_run_of endpoints).mp (Claims.mem_names_of_get? waiting)
  constructor
  case exclusive => exact consistent.eq_of_leased
  case accounted => exact fun bound => consistent.freeAt_eq (size.symm ▸ bound)
  case started => exact exists_acquire_of_waiting
  case freed => exact fun held ends => consistent.freeAt_of_ends held ends
  case spent => exact slots_of_spent
  case kept => exact fun held other => consistent.kept_of_not_ends held other
  case owed =>
    intro who slot waiting
    obtain ⟨opened, holder⟩ := consistent.of_waiting waiting
    refine ⟨fun closed => ?_, holder⟩
    rw [(isClosed_run_of nonempty).mpr closed] at opened
    cases opened
  case inTurn =>
    intro first second slot arrived ahead behind more served
    have order := arrived.sublist_names endpoints (asked behind)
    exact (consistent.inTurn_run (.queued ahead behind order) more).through_of_served served
  case headed =>
    intro who slot waiting
    obtain ⟨first, head, ahead⟩ := consistent.exists_head waiting
    refine ⟨first, ahead, ?_⟩
    intro other different behind
    exact arrivedBefore_of_sublist_names endpoints
      (consistent.sublist_names_of_head head behind different)
  case handedOver =>
    intro holder first slot action held ends ahead earliest
    have apart : first ≠ holder := by
      rintro rfl
      rw [held] at ahead
      cases ahead
    have head := head?_line_of_earliest endpoints ahead earliest
    exact consistent.handedOver held ends apart head
  case closed =>
    intro who slot held
    simp [step, closeLease_of_leased held, drop_of_leased held, consistent.get?_giveBack held]
  case keepsNone =>
    intro who slot spare more other
    refine consistent.run_idle ?_ more other
    rcases spare with spare | spare <;> rw [spare] <;> rfl
  case withdrawn =>
    intro who slot waiting
    have claims := consistent.claims_cancel waiting
    refine ⟨fun more => (consistent.step _).run_cancelled ?_ more, fun other different => ?_⟩
    · rw [claims, Claims.get?_set_self waiting]
    · rw [claims, Claims.get?_set_of_ne different]
  case sentAway =>
    intro who slot waiting more
    exact (consistent.step _).run_interrupted (get?_close_of_waiting waiting) more
  case refused =>
    intro closed who absent more
    have fresh := Claims.get?_eq_none_iff.mpr (mt (mem_names_run_of endpoints).mp absent)
    have told := consistent.refused_of_closed some ((isClosed_run_of nonempty).mpr closed) fresh
    exact (consistent.step _).run_interrupted told more

/-- Five callers at two servers: the second who waits has given up when the first is served. -/
theorem orderly_run_two :
    [Endpoint.fallback, .fallback] ≠ [] ∧
      Orderly [.fallback, .fallback]
        ([.acquire 0, .acquire 1, .acquire 2, .acquire 3, .acquire 4, .cancel 2, .closeLease 0,
          .drop 0, .close] : List (Action Nat))
        ((of [.fallback, .fallback]).run
          [.acquire 0, .acquire 1, .acquire 2, .acquire 3, .acquire 4, .cancel 2, .closeLease 0,
            .drop 0, .close]) :=
  ⟨by simp, orderly_run (by simp) _⟩

end Pool

end Turnstile
