import Mathlib.Data.List.Basic
import Turnstile.Proofs.Executor.Progress
import Turnstile.Proofs.Gate.Admissions
import Turnstile.Proofs.Pool.Leases

/-!
# Shutdown

Once an executor was shut down nobody is let in any more.  Whoever waited is sent
away, and so is whoever comes; who had been let in goes on as if nothing had
happened, and what it held is free when it is over.
-/

namespace Turnstile

/-! ## Closed gates -/

namespace Gate

variable {ι : Type} [DecidableEq ι] {gate after : Gate ι} {who : ι}

theorem standing_close_of_waiting (waiting : gate.standing who = .waiting) :
    gate.close.standing who = .refused := by
  unfold standing at waiting ⊢
  rw [close, Claims.get?_mapStates]
  cases known : gate.claims.get? who with
  | none => simp [known] at waiting
  | some claim => cases claim <;> simp_all [GateClaim.standing]

theorem standing_acquire_of_closed (fresh : gate.standing who = .absent)
    (closed : gate.isClosed = true) : (gate.acquire who).standing who = .refused := by
  have fresh := standing_eq_absent_iff.mp fresh
  rw [acquire_of_closed fresh closed, standing, Claims.get?_enter fresh, if_pos rfl]
  rfl

namespace Consistent

/-- A closed gate lets nobody in. -/
theorem held_of_closed (consistent : gate.Consistent) (closed : gate.isClosed = true)
    {actions : List (Action ι)} (held : (gate.run actions).claims.get? who = some .held) :
    gate.claims.get? who = some .held := by
  induction actions generalizing gate with
  | nil => exact held
  | cons action actions ih =>
      have stays := (consistent.isClosed_step action).mpr (.inl closed)
      have here := ih (consistent.step action) stays held
      have moves := consistent.moves action who
      rw [here] at moves
      generalize gate.claims.get? who = claim at moves
      cases moves with
      | stays => rfl
      | granted opened =>
          rw [closed] at opened
          cases opened
      | served _ first =>
          rw [consistent.line_eq_nil_of_closed closed] at first
          cases first

/-- Where nobody was let in, those who left have left their permits. -/
theorem available_add (consistent : gate.Consistent) (later : after.Consistent)
    (capacity : after.capacity = gate.capacity)
    (kept : ∀ who, after.claims.get? who = some .held → gate.claims.get? who = some .held) :
    after.available = gate.available +
      (gate.holders.filter fun who => after.claims.get? who ≠ some .held).length := by
  have stayed : (gate.holders.filter fun who => after.claims.get? who = some .held).length =
      after.holders.length := by
    refine ((List.perm_ext_iff_of_nodup (consistent.nodup_holders.filter _)
      later.nodup_holders).mpr fun who => ?_).length_eq
    rw [List.mem_filter, decide_eq_true_eq, consistent.mem_holders, later.mem_holders]
    exact ⟨And.right, fun held => ⟨kept who held, held⟩⟩
  have split := gate.holders.length_eq_length_filter_add fun who =>
    after.claims.get? who = some .held
  have balance := consistent.balance
  have balance_later := later.balance
  simp only [← decide_not] at split
  simp only [ne_eq]
  omega

end Consistent

end Gate

/-! ## Closed pools -/

namespace Pool

variable {ι : Type} [DecidableEq ι] {pool after : Pool ι} {who : ι} {slot : Nat}

theorem standing_close_of_waiting (waiting : pool.standing who = .waiting) :
    pool.close.standing who = .refused := by
  unfold standing at waiting ⊢
  simp only [close, Claims.get?_mapStates]
  cases known : pool.claims.get? who with
  | none => simp [known] at waiting
  | some claim =>
      cases claim with
      | leased slot isOpen => cases isOpen <;> simp [known, PoolClaim.standing] at waiting
      | _ => simp_all [PoolClaim.standing]

theorem standing_acquire_of_closed (consistent : pool.Consistent) (some : 0 < pool.size)
    (fresh : pool.standing who = .absent) (closed : pool.isClosed = true) :
    (pool.acquire who).standing who = .refused := by
  have fresh := standing_eq_absent_iff.mp fresh
  have refused : (pool.acquire who).claims.get? who = Option.some .interrupted :=
    consistent.refused_of_closed some closed fresh
  rw [standing, refused]
  rfl

omit [DecidableEq ι] in
/-- The servers that are free are those whose slots have a free permit. -/
theorem available_eq (pool : Pool ι) :
    pool.available = (List.range pool.size).countP fun slot => 0 < pool.freeAt slot := by
  have slots : pool.slots.map (fun slot => slot.semaphore.free) =
      (List.range pool.size).map pool.freeAt := by
    refine List.ext_getElem (by simp [size]) ?_
    intro index bound _
    rw [List.length_map] at bound
    simp [freeAt, List.getElem?_eq_getElem bound]
  calc pool.available
      = (pool.slots.map fun slot => slot.semaphore.free).countP fun free => 0 < free := by
        rw [List.countP_map]
        rfl
    _ = (List.range pool.size).countP fun slot => 0 < pool.freeAt slot := by
        rw [slots, List.countP_map]
        rfl

namespace Consistent

/-- A closed pool leases nothing any more. -/
theorem leased_of_closed (consistent : pool.Consistent) (some : 0 < pool.size)
    (closed : pool.isClosed = true) {actions : List (Action ι)}
    (leased : (pool.run actions).claims.get? who = Option.some (.leased slot true)) :
    pool.claims.get? who = Option.some (.leased slot true) := by
  induction actions generalizing pool with
  | nil => exact leased
  | cons action actions ih =>
      have stays := (consistent.isClosed_step some action).mpr (.inl closed)
      have here := ih (consistent.step action) (consistent.size_step action ▸ some) stays leased
      have moves := consistent.moves action who
      rw [here] at moves
      generalize before : pool.claims.get? who = claim at moves
      cases moves with
      | stays => rfl
      | granted opened =>
          rw [closed] at opened
          cases opened
      | served =>
          have opened := (consistent.of_waiting before).1
          rw [closed] at opened
          cases opened

/-- Where nothing was leased, a server that was free is free. -/
theorem free_of_free (consistent : pool.Consistent) (later : after.Consistent)
    (kept : ∀ {who slot}, after.claims.get? who = some (.leased slot true) →
      pool.claims.get? who = some (.leased slot true))
    (bound : slot < pool.size) (size : after.size = pool.size) (free : 0 < pool.freeAt slot) :
    0 < after.freeAt slot := by
  rcases later.freeAt_eq (size ▸ bound) with ⟨_, holder, held⟩ | ⟨free, _⟩
  · rcases consistent.freeAt_eq bound with ⟨busy, _⟩ | ⟨_, nobody⟩
    · omega
    · exact absurd (kept held) (nobody holder)
  · omega

/-- Where nothing was leased, the servers of those who have left are free besides. -/
theorem available_add (consistent : pool.Consistent) (later : after.Consistent)
    (size : after.size = pool.size)
    (kept : ∀ {who slot}, after.claims.get? who = some (.leased slot true) →
      pool.claims.get? who = some (.leased slot true)) :
    after.available = pool.available + (List.range pool.size).countP fun slot =>
      pool.freeAt slot = 0 ∧ 0 < after.freeAt slot := by
  rw [available_eq, available_eq, size,
    List.countP_eq_countP_filter_add _ _ fun slot => 0 < pool.freeAt slot, List.countP_filter,
    List.countP_filter]
  congr 1
  · refine List.countP_congr fun slot member => ?_
    have free := consistent.free_of_free later kept (List.mem_range.mp member) size
    simpa using free
  · refine List.countP_congr fun slot _ => ?_
    simp [and_comm]

end Consistent

end Pool

/-! ## One run -/

/-- The run that an action is about. -/
def Action.subject? : Action → Option Ticket
  | .launch ticket _ _ _ => some ticket
  | .observe ticket _ _ => some ticket
  | .abandon ticket => some ticket
  | _ => none

/-- The action is about the run with this ticket, or time passes. -/
def Action.concerns (ticket : Ticket) : Action → Bool
  | .elapse _ => true
  | action => action.subject? = some ticket

namespace Run

variable {run : Run} {runner : Runner} {limit : Time} {ticket : Ticket}

theorem heed_of_not_concerns {action : Action} (other : ¬ action.concerns ticket = true) :
    run.heed runner limit ticket action = run := by
  cases action <;> simp_all [Action.concerns, Action.subject?, heed]

/-- A run heeds the actions that concern it. -/
theorem heedAll_filter (run : Run) (actions : List Action) :
    run.heedAll runner limit ticket (actions.filter (·.concerns ticket)) =
      run.heedAll runner limit ticket actions := by
  induction actions generalizing run with
  | nil => rfl
  | cons action actions ih =>
      by_cases concerns : action.concerns ticket = true
      · rw [List.filter_cons_of_pos concerns]
        exact ih _
      · rw [List.filter_cons_of_neg concerns, ih, heedAll, heedAll, List.foldl_cons,
          heed_of_not_concerns concerns]

end Run

/-! ## An executor that was shut down -/

namespace Executor

variable {executor : Executor} {ticket : Ticket} {run : Run}

/-- All gates are closed, and so is the pool if it has a server. -/
structure IsShut (executor : Executor) : Prop where
  gates : ∀ category, (executor.gates category).isClosed = true
  pool : 0 < executor.pool.size → executor.pool.isClosed = true

theorem isShut_shutdown (pool : executor.pool.Consistent) : executor.shutdown.IsShut where
  gates _ := rfl
  pool some :=
    have some : 0 < executor.pool.size := pool.size_step .close ▸ some
    (pool.isClosed_step some .close).mpr (.inr rfl)

/-- What was shut stays shut. -/
theorem IsShut.of_leads {after : Executor} (shut : executor.IsShut) (leads : executor.Leads after)
    (gates : ∀ category, (executor.gates category).Consistent) (pool : executor.pool.Consistent) :
    after.IsShut where
  gates category := by
    obtain ⟨actions, same⟩ := leads.gates category
    rw [same]
    exact ((gates category).isClosed_run actions).mpr (.inl (shut.gates category))
  pool some := by
    obtain ⟨actions, same⟩ := leads.pool
    rw [same] at some ⊢
    have some : 0 < executor.pool.size := pool.size_run actions ▸ some
    exact (pool.isClosed_run some).mpr (.inl (shut.pool some))

theorem sink_begin (executor : Executor) (category : Category) (request : Request) :
    (executor.begin category request).2.sink = executor.sink := by
  rw [begin_eq]
  change (executor.arrive _).sink = executor.sink
  generalize Run.place _ = place
  cases place <;> rfl

/-- A run that waits is told that it is sent away. -/
theorem advanced_of_refused (waiting : run.stage = .waiting)
    (refused : executor.standing run.place ticket = .refused) :
    executor.advanced ticket run = run.interrupted := by
  unfold advanced
  simp only [waiting]
  cases pooled : run.pooled with
  | true =>
      simp only [Run.place, pooled, if_true, standing, Pool.standing] at refused
      cases known : executor.pool.claims.get? ticket with
      | none => simp [known] at refused
      | some claim =>
          cases claim with
          | leased slot isOpen => cases isOpen <;> simp [known, PoolClaim.standing] at refused
          | _ => simp_all [PoolClaim.standing, Run.interrupted, Run.interruption]
  | false =>
      simp only [Run.place, pooled, standing, Gate.standing] at refused
      cases known : (executor.gates run.category).claims.get? ticket with
      | none => simp [known] at refused
      | some claim =>
          cases claim <;> simp_all [GateClaim.standing, Run.interrupted, Run.interruption]

/-- Whoever comes to a gate or a pool that is shut is sent away. -/
theorem standing_arrive_of_shut (pool : executor.pool.Consistent) (shut : executor.IsShut)
    {place : Option Category} (served : place = none → 0 < executor.pool.size)
    (fresh : executor.standing place executor.issued = .absent) :
    (executor.arrive place).standing place executor.issued = .refused := by
  cases place with
  | none =>
      exact Pool.standing_acquire_of_closed pool (served rfl) fresh (shut.pool (served rfl))
  | some category =>
      have here : (executor.arrive (some category)).gates category =
          (executor.gates category).acquire executor.issued := by
        simp [arrive, gates_setGate]
      rw [standing, here]
      exact Gate.standing_acquire_of_closed fresh (shut.gates category)

end Executor

namespace World

variable {setup : Setup} {world : World} {ticket : Ticket} {run : Run}

/-! ## Runs that are sent away -/

/-- A run has been sent away: it has no process, cannot be started, and what is done to it
does nothing. -/
structure SentAway (world : World) (ticket : Ticket) (run : Run) : Prop where
  ended : world.executor.outcome? ticket = some (.error run.interruption)
  unstarted : world.process? ticket = none
  unstartable : ∀ request, (ticket, request) ∉ world.executor.startable
  inert : ∀ {action : Action}, action.subject? = some ticket → world.step action = world

theorem Coherent.sentAway (coherent : world.Coherent setup)
    (known : world.executor.run? ticket = some run.interrupted) (idle : run.supervision = none) :
    world.SentAway ticket run where
  ended := by
    rw [Executor.outcome?, known]
    rfl
  unstarted := by
    rw [process?, known, Option.bind_some]
    exact idle
  unstartable request member := by
    obtain ⟨⟨name, found⟩, member, startable⟩ := List.mem_filterMap.mp member
    have found_known := Claims.get?_of_mem coherent.settled.names member
    cases stage : found.stage with
    | admitted asked =>
        simp only [stage, Option.some.injEq, Prod.mk.injEq] at startable
        obtain ⟨rfl, rfl⟩ := startable
        rw [show world.executor.runs.get? name = _ from known] at found_known
        cases found_known
        cases stage
    | _ => simp [stage] at startable
  inert {action} own := by
    have unstarted : world.process? ticket = none := by
      rw [process?, known, Option.bind_some]
      exact idle
    cases action with
    | launch other now probe spawned =>
        cases own
        have same : world.executor.launch ticket now probe spawned = world.executor := by
          simp [Executor.launch, known, Run.interrupted]
        rw [World.step, same]
    | observe other now event =>
        cases own
        have same : world.executor.observe ticket now event = world.executor :=
          Executor.supervise_of_idle known idle _
        simp [World.step, same, unstarted]
    | abandon other =>
        cases own
        have same : world.executor.abandon ticket = world.executor := by
          simp [Executor.abandon, known, Run.interrupted]
        rw [World.step, same]
    | _ => cases own

/-- Whoever is sent away stays away. -/
theorem Coherent.sentAway_through (coherent : world.Coherent setup)
    (known : world.executor.run? ticket = some run.interrupted) (idle : run.supervision = none)
    (actions : List Action) : (world.through actions).SentAway ticket run := by
  refine (coherent.through actions).sentAway ?_ idle
  rw [coherent.run?_through_of_told known nofun, Run.interrupted, Run.heedAll_of_ended idle]

theorem Coherent.run?_shutdown_of_waiting (coherent : world.Coherent setup)
    (known : world.executor.run? ticket = some run) (waiting : run.stage = .waiting) :
    (world.step .shutdown).executor.run? ticket = some run.interrupted := by
  have fits := coherent.settled.fits known
  rw [waiting] at fits
  change (world.executor.shutdown).run? ticket = some run.interrupted
  rw [Executor.shutdown, Executor.run?_refresh]
  refine (congrArg _ known).trans ?_
  rw [Option.map_some]
  congr 1
  refine Executor.advanced_of_refused waiting ?_
  cases place : run.place with
  | none =>
      rw [place] at fits
      refine Pool.standing_close_of_waiting ?_
      generalize same : world.executor.standing none ticket = standing at fits
      cases fits
      exact same
  | some category =>
      rw [place] at fits
      refine Gate.standing_close_of_waiting ?_
      generalize same : world.executor.standing (some category) ticket = standing at fits
      cases fits
      exact same

theorem Coherent.run?_begin_of_shut (coherent : world.Coherent setup)
    (shut : world.executor.IsShut) (category : Category) (request : Request) :
    (world.step (.begin category request)).executor.run? world.executor.issued =
      some (Run.interrupted
        { category, request, pooled := world.executor.usesPool category request.argv }) := by
  simp only [World.step, Executor.begin_eq]
  rw [Executor.run?_refresh, Executor.run?_enter coherent.settled, if_pos rfl, Option.map_some]
  congr 1
  refine Executor.advanced_of_refused rfl ?_
  refine Executor.standing_arrive_of_shut coherent.settled.pool shut ?_
    (coherent.settled.fresh _ _ (Nat.le_refl _))
  intro pool
  have uses : world.executor.usesPool category request.argv = true := by
    simpa [Run.place] using pool
  exact Executor.pool_ne_empty_of_usesPool uses

/-! ## What was held -/

/-- After its shutdown an executor is shut. -/
theorem Coherent.isShut (coherent : world.Coherent setup) (actions : List Action) :
    ((world.step .shutdown).through actions).executor.IsShut := by
  have shut : (world.step .shutdown).executor.IsShut :=
    Executor.isShut_shutdown coherent.settled.pool
  have settled := (coherent.step .shutdown).settled
  exact shut.of_leads (leads_through _ actions) settled.gates settled.pool

/-- A run that is over holds nothing anywhere. -/
theorem Coherent.holds_nothing (coherent : world.Coherent setup)
    (known : world.executor.run? ticket = some run) (finished : run.stage.isOver = true) :
    (∀ category, (world.executor.gates category).claims.get? ticket ≠ some .held) ∧
      ∀ slot, world.executor.pool.claims.get? ticket ≠ some (.leased slot true) := by
  have idle (place : Option Category) : world.executor.standing place ticket ≠ .holding := by
    by_cases own : place = run.place
    · have fits := coherent.settled.fits known
      rw [← own] at fits
      generalize world.executor.standing place ticket = standing at fits
      generalize run.stage = stage at fits finished
      cases fits with
      | ended out => exact out.2
      | cancelled out => exact out.2
      | _ => cases finished
    · rw [coherent.settled.alone known own]
      nofun
  constructor
  · intro category held
    exact idle (some category) (Gate.standing_eq_holding_iff.mpr held)
  · intro slot leased
    exact idle none (Pool.standing_eq_holding_iff.mpr ⟨slot, leased⟩)

/-- Who holds a permit after the shutdown held it before. -/
theorem Coherent.held_of_shutdown (coherent : world.Coherent setup) {actions : List Action}
    {category : Category}
    (held : (((world.step .shutdown).through actions).executor.gates category).claims.get? ticket =
      some .held) : (world.executor.gates category).claims.get? ticket = some .held := by
  obtain ⟨moves, same⟩ := (leads_through (world.step .shutdown) actions).gates category
  have shut := coherent.isShut []
  rw [same] at held
  have closed := ((coherent.step .shutdown).settled.gates category).held_of_closed
    (shut.gates category) held
  change (world.executor.gates category).close.claims.get? ticket = some .held at closed
  rw [Gate.get?_close] at closed
  split at closed
  · cases closed
  · exact closed

/-- Who has a lease after the shutdown had it before. -/
theorem Coherent.leased_of_shutdown (coherent : world.Coherent setup) {actions : List Action}
    {slot : Nat}
    (leased : ((world.step .shutdown).through actions).executor.pool.claims.get? ticket =
      some (.leased slot true)) :
    world.executor.pool.claims.get? ticket = some (.leased slot true) := by
  obtain ⟨moves, same⟩ := (leads_through (world.step .shutdown) actions).pool
  have shut := coherent.isShut []
  have pool := (coherent.step .shutdown).settled.pool
  rw [same] at leased
  have bound := (pool.run moves).placed leased rfl
  rw [pool.size_run] at bound
  have some := Nat.zero_lt_of_lt bound
  have closed := pool.leased_of_closed some (shut.pool some) leased
  have moved := coherent.settled.pool.moves .close ticket
  change world.executor.pool.close.claims.get? ticket = _ at closed
  change Pool.Moves _ _ _ _ (world.executor.pool.close.claims.get? ticket) at moved
  rw [closed] at moved
  generalize world.executor.pool.claims.get? ticket = claim at moved
  cases moved with
  | stays => rfl
  | served ends => rcases ends with ends | ends <;> cases ends

/-! ## What is left behind -/

/-- What has become of a state, in a state that comes after its shutdown and these actions. -/
structure WoundDown (world : World) (actions : List Action) (after : World) : Prop where
  /-- Whoever waited has been sent away. -/
  waited : ∀ {ticket run}, world.executor.run? ticket = some run → run.stage = .waiting →
    after.SentAway ticket run
  /-- Whoever comes is sent away at once and for good, without a line for the sink. -/
  comes : ∀ category request more,
    ((after.step (.begin category request)).through more).SentAway after.executor.issued
        { category, request, pooled := after.executor.usesPool category request.argv } ∧
      (after.step (.begin category request)).executor.sink = after.executor.sink
  /-- A run that was let in is what it would be without the shutdown, whatever the others did. -/
  undisturbed : ∀ {ticket run}, world.executor.run? ticket = some run → run.stage ≠ .waiting →
    ∀ others : List Action,
      others.filter (·.concerns ticket) = actions.filter (·.concerns ticket) →
        after.executor.run? ticket = (world.through others).executor.run? ticket
  /-- Once it is over it holds nothing. -/
  returned : ∀ {ticket run}, after.executor.run? ticket = some run → run.stage.isOver = true →
    (∀ category, (after.executor.gates category).claims.get? ticket ≠ some .held) ∧
      ∀ slot, after.executor.pool.claims.get? ticket ≠ some (.leased slot true)
  /-- The permits of those who have held one, and do so no more, are free besides. -/
  permits : ∀ category, (after.executor.gates category).available =
    (world.executor.gates category).available +
      ((world.executor.gates category).holders.filter fun ticket =>
        (after.executor.gates category).claims.get? ticket ≠ some .held).length
  /-- So are the servers that were leased and are so no more. -/
  servers : after.executor.pool.available = world.executor.pool.available +
    (List.range world.executor.pool.size).countP fun slot =>
      world.executor.pool.freeAt slot = 0 ∧ 0 < after.executor.pool.freeAt slot
  /-- A server that was leased to a run that is over is one of them. -/
  freed : ∀ {ticket slot run}, world.executor.pool.claims.get? ticket = some (.leased slot true) →
    after.executor.run? ticket = some run → run.stage.isOver = true →
      world.executor.pool.freeAt slot = 0 ∧ after.executor.pool.freeAt slot = 1

/-- Once an executor was shut down, this holds in every state that it comes to. -/
theorem woundDown_shutdown (setup : Setup) (actions more : List Action) :
    WoundDown (World.run setup actions) more
      (((World.run setup actions).step .shutdown).through more) := by
  have coherent := coherent_run setup actions
  have faithful {ticket : Ticket} {run : Run}
      (known : (World.run setup actions).executor.run? ticket = some run) :=
    faithful_run actions known
  generalize World.run setup actions = world at coherent faithful
  have shut := coherent.step .shutdown
  have coherent_after := shut.through more
  have pool := coherent.settled.pool
  have pool_after := coherent_after.settled.pool
  have size : ((world.step .shutdown).through more).executor.pool.size =
      world.executor.pool.size :=
    coherent_after.settled.servers.trans coherent.settled.servers.symm
  constructor
  case waited =>
    intro ticket run known waiting
    exact shut.sentAway_through (coherent.run?_shutdown_of_waiting known waiting)
      ((faithful known).waiting waiting) more
  case comes =>
    intro category request rest
    have told := coherent_after.run?_begin_of_shut (coherent.isShut more) category request
    exact ⟨(coherent_after.step _).sentAway_through told rfl rest,
      Executor.sink_begin _ category request⟩
  case undisturbed =>
    intro ticket run known told others same
    have here := coherent.run?_through_of_told known told (.shutdown :: more)
    have there := coherent.run?_through_of_told known told others
    change ((world.step .shutdown).through more).executor.run? ticket = _ at here
    rw [here, there, ← Run.heedAll_filter run others, same, Run.heedAll_filter]
    rfl
  case returned =>
    intro ticket run known finished
    exact coherent_after.holds_nothing known finished
  case permits =>
    intro category
    refine (coherent.settled.gates category).available_add
      (coherent_after.settled.gates category) ?_ fun ticket held => coherent.held_of_shutdown held
    exact (coherent_after.settled.permits category).trans
      (coherent.settled.permits category).symm
  case servers => exact pool.available_add pool_after size coherent.leased_of_shutdown
  case freed =>
    intro ticket slot run leased known finished
    have bound := pool.placed leased rfl
    constructor
    · rcases pool.freeAt_eq bound with ⟨busy, _⟩ | ⟨_, nobody⟩
      · exact busy
      · exact absurd leased (nobody ticket)
    · rcases pool_after.freeAt_eq (size ▸ bound) with ⟨_, holder, held⟩ | ⟨free, _⟩
      · -- Nobody else can have come to hold it.
        have same := pool.eq_of_leased (coherent.leased_of_shutdown held) leased
        subst same
        exact absurd held ((coherent_after.holds_nothing known finished).2 slot)
      · exact free

end World

end Turnstile
