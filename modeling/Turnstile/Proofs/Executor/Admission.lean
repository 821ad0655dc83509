import Mathlib.Data.List.Perm.Subperm
import Turnstile.Proofs.Executor.Operations

/-!
# Admission over a run

What callers do to an executor and what happens to its processes comes in any
order.  In every state that is reached the processes of a category that are still
alive, and the permits of its gate, stay within the capacity of the gate; a pooled
server has one process or direct lease at most; and when nothing is outstanding
every permit and every server is free again.
-/

namespace Turnstile

/-- The run has an outcome, or has been given up. -/
def RunStage.isOver : RunStage → Bool
  | .ended _ => true
  | .cancelled => true
  | _ => false

/-- What callers do to an executor, and what happens to its processes. -/
inductive Action where
  | begin (category : Category) (request : Request)
  /-- A permit is asked for directly. -/
  | hold (category : Category)
  /-- A lease is asked for directly. -/
  | lease
  /-- The caller of a direct permit stops waiting for it, or drops it. -/
  | release (category : Category) (ticket : Ticket)
  /-- The caller of a direct lease closes it. -/
  | closeLease (ticket : Ticket)
  /-- The caller of a direct lease stops waiting for it, or drops it. -/
  | dropLease (ticket : Ticket)
  /-- An admitted run is checked and, unless it is refused, started. -/
  | launch (ticket : Ticket) (now : Time) (probe : String → PathKind)
      (spawned : Except String Answers)
  | observe (ticket : Ticket) (now : Time) (event : ProcessEvent)
  | elapse (now : Time)
  /-- The caller of a run gives up. -/
  | abandon (ticket : Ticket)
  | shutdown

/-- An executor and the processes that it has started. -/
structure World where
  executor : Executor
  /-- The runs whose processes have been reaped. -/
  reaped : List Ticket := []

namespace World

/-- The supervision of the process that a run has started. -/
def process? (world : World) (ticket : Ticket) : Option Supervision :=
  (world.executor.run? ticket).bind Run.supervision

/-- What is done to a direct permit or lease; the tickets of runs are not given to callers. -/
def direct (world : World) (ticket : Ticket) (change : Executor → Executor) : World :=
  if (world.executor.run? ticket).isSome then world
  else { world with executor := change world.executor }

def step (world : World) : Action → World
  | .begin category request =>
    { world with executor := (world.executor.begin category request).2 }
  | .hold category => { world with executor := (world.executor.hold category).2 }
  | .lease => { world with executor := world.executor.lease.2 }
  | .release category ticket =>
    world.direct ticket fun executor => executor.leaveGate category ticket
  | .closeLease ticket => world.direct ticket fun executor => executor.closeLease ticket
  | .dropLease ticket => world.direct ticket fun executor => executor.leavePool ticket
  | .launch ticket now probe spawned =>
    { world with executor := world.executor.launch ticket now probe spawned }
  | .observe ticket now event =>
    { executor := world.executor.observe ticket now event
      reaped :=
        if event.reaps && (world.process? ticket).isSome then ticket :: world.reaped
        else world.reaped }
  | .elapse now => { world with executor := world.executor.elapse now }
  | .abandon ticket => { world with executor := world.executor.abandon ticket }
  | .shutdown => { world with executor := world.executor.shutdown }

/-- What a new executor has come to. -/
def run (setup : Setup) (actions : List Action) : World :=
  actions.foldl step { executor := setup.build }

/-- The process of a run was started, and was neither reaped nor sent the signal to end it. -/
def isLive (world : World) (ticket : Ticket) (run : Run) : Bool :=
  run.supervision.any fun supervision =>
    !world.reaped.contains ticket && !supervision.signals.contains .kill

/-- The runs let in at a place whose processes are alive. -/
def live (world : World) (place : Option Category) : List Ticket :=
  (world.executor.runs.filter fun item =>
    item.2.place = place && world.isLive item.1 item.2).map Prod.fst

/-- A process that is alive, or the caller of a direct lease, has the server of a slot. -/
def Occupies (world : World) (slot : Nat) (ticket : Ticket) : Prop :=
  world.executor.pool.claims.get? ticket = some (.leased slot true) ∧
    (ticket ∈ world.live none ∨ world.executor.run? ticket = none)

/-- Every run is over, and no direct permit or lease is held. -/
structure Idle (world : World) : Prop where
  runs : ∀ {ticket run}, world.executor.run? ticket = some run → run.stage.isOver = true
  permits : ∀ {ticket}, world.executor.run? ticket = none →
    ∀ category, (world.executor.gates category).claims.get? ticket ≠ some .held
  leases : ∀ {ticket}, world.executor.run? ticket = none →
    ∀ slot, world.executor.pool.claims.get? ticket ≠ some (.leased slot true)

/-- What an executor of a setup serves at once. -/
def capacities (setup : Setup) : Executor.Capacities where
  permits category := (Gate.fitting (setup.limitsFor category)).maxConcurrency
  servers := setup.resolved.1.length

/-- What every action keeps. -/
def Coherent (setup : Setup) (world : World) : Prop :=
  world.executor.Coherent (capacities setup) (· ∈ world.reaped)

variable {setup : Setup} {world : World}

theorem coherent_build (setup : Setup) : Coherent setup { executor := setup.build } := by
  constructor
  case settled =>
    constructor
    case gates => exact fun category => .of category _
    case pool => exact .of _
    case permits =>
      intro category
      rfl
    case servers => simp [Setup.build, Pool.of, Pool.size, capacities]
    case fresh =>
      intro place ticket _
      cases place <;> rfl
    case names => exact List.nodup_nil
    all_goals
      intros
      contradiction
  case accounted =>
    intro ticket run known
    cases known

theorem Coherent.direct (coherent : world.Coherent setup) {ticket : Ticket}
    {change : Executor → Executor}
    (kept : world.executor.run? ticket = none →
      (change world.executor).Coherent (capacities setup) (· ∈ world.reaped)) :
    (world.direct ticket change).Coherent setup := by
  unfold World.direct
  split
  · exact coherent
  · rename_i direct
    exact kept (Option.not_isSome_iff_eq_none.mp direct)

theorem Coherent.observe (coherent : world.Coherent setup) (ticket : Ticket) (now : Time)
    (event : ProcessEvent) : (world.step (.observe ticket now event)).Coherent setup := by
  cases process : world.process? ticket with
  | none =>
      have same : world.executor.observe ticket now event = world.executor := by
        unfold process? at process
        unfold Executor.observe Executor.supervise
        cases known : world.executor.run? ticket with
        | none => rfl
        | some run =>
            rw [known] at process
            simp only [Option.bind_some] at process
            simp [process]
      simpa [World.step, process, same] using coherent
  | some supervision =>
      have known : world.executor.Coherent (capacities setup) fun other =>
          other ∈ (world.step (.observe ticket now event)).reaped := by
        refine Executor.Coherent.mono coherent ?_
        intro other member
        simp only [World.step]
        split
        · exact List.mem_cons_of_mem _ member
        · exact member
      refine known.supervise fun before => (before.letsGo_observe now event).mono ?_
      intro reaps
      simp [World.step, reaps, process]

theorem Coherent.step (coherent : world.Coherent setup) (action : Action) :
    (world.step action).Coherent setup := by
  cases action with
  | begin category request => exact Executor.Coherent.begin coherent category request
  | hold category => exact Executor.Coherent.arrive coherent (some category)
  | lease => exact Executor.Coherent.arrive coherent none
  | release category ticket =>
      exact coherent.direct fun direct => Executor.Coherent.leaveGate coherent direct category
  | closeLease ticket =>
      exact coherent.direct fun direct => Executor.Coherent.closeLease coherent direct
  | dropLease ticket =>
      exact coherent.direct fun direct => Executor.Coherent.leavePool coherent direct
  | launch ticket now probe spawned => exact Executor.Coherent.launch coherent now probe spawned
  | observe ticket now event => exact coherent.observe ticket now event
  | elapse now => exact Executor.Coherent.elapse coherent now
  | abandon ticket => exact Executor.Coherent.abandon coherent ticket
  | shutdown => exact Executor.Coherent.shutdown coherent

theorem coherent_run (setup : Setup) (actions : List Action) :
    (World.run setup actions).Coherent setup := by
  unfold World.run
  have start := coherent_build setup
  generalize ({ executor := setup.build } : World) = world at start
  induction actions generalizing world with
  | nil => exact start
  | cons action actions ih => exact ih _ (start.step action)

/-! ## Who is alive, and what is held -/

namespace Coherent

/-- A process that is alive has a run that holds what it was let in with. -/
theorem holding_of_live (coherent : world.Coherent setup) {place : Option Category}
    {ticket : Ticket} (alive : ticket ∈ world.live place) :
    world.executor.standing place ticket = .holding := by
  simp only [live, List.mem_map, List.mem_filter, Bool.and_eq_true, decide_eq_true_eq] at alive
  obtain ⟨⟨name, run⟩, ⟨member, rfl, alive⟩, rfl⟩ := alive
  have known : world.executor.run? name = some run :=
    Claims.get?_of_mem coherent.settled.names member
  cases process : run.supervision with
  | none => simp [isLive, process] at alive
  | some supervision =>
      simp only [isLive, process, Option.any_some, Bool.and_eq_true, Bool.not_eq_true',
        List.contains_eq_mem, decide_eq_false_iff_not] at alive
      obtain ⟨accounted, active⟩ := coherent.accounted name run known supervision process
      rcases accounted with opened | reaped | killed
      · have fits := coherent.settled.fits known
        rw [active opened] at fits
        generalize world.executor.standing run.place name = standing at fits
        cases fits
        rfl
      · exact absurd reaped alive.1
      · exact absurd killed alive.2

theorem nodup_live (coherent : world.Coherent setup) (place : Option Category) :
    (world.live place).Nodup :=
  coherent.settled.names.sublist (List.filter_sublist.map Prod.fst)

/-- When every run is over, whoever holds something holds it directly. -/
theorem not_holding_of_idle (coherent : world.Coherent setup)
    (finished : ∀ {ticket run}, world.executor.run? ticket = some run → run.stage.isOver = true)
    {place : Option Category} {ticket : Ticket}
    (holding : world.executor.standing place ticket = .holding) :
    world.executor.run? ticket = none := by
  cases known : world.executor.run? ticket with
  | none => rfl
  | some run =>
      exfalso
      by_cases own : place = run.place
      · subst own
        have fits := coherent.settled.fits known
        have finished := finished known
        rw [holding] at fits
        cases stage : run.stage with
        | ended outcome =>
            rw [stage] at fits
            cases fits with
            | ended out => exact out.2 rfl
        | cancelled =>
            rw [stage] at fits
            cases fits with
            | cancelled out => exact out.2 rfl
        | _ => simp [stage, RunStage.isOver] at finished
      · rw [coherent.settled.alone known own] at holding
        cases holding

end Coherent

/-! ## Every state -/

/-- What holds in every state that an executor of a setup comes to. -/
structure Bounded (setup : Setup) (world : World) : Prop where
  /-- What is served at once is what was set up. -/
  capacity : ∀ category, (world.executor.gates category).capacity =
    min (setup.limitsFor category).maxConcurrency Gate.maxCapacity
  servers : world.executor.pool.size = setup.resolved.1.length
  /-- A process that is alive and passed a gate has its permit. -/
  permitted : ∀ {category ticket}, ticket ∈ world.live (some category) →
    (world.executor.gates category).claims.get? ticket = some .held
  /-- No more processes of a category are alive than its gate has permits. -/
  live : ∀ category,
    (world.live (some category)).length ≤ (world.executor.gates category).capacity
  /-- The permits that are free and those that are held are all there are. -/
  balance : ∀ category, (world.executor.gates category).available +
    (world.executor.gates category).holders.length = (world.executor.gates category).capacity
  /-- A process that is alive and was sent to a pooled server has its lease. -/
  leased : ∀ {ticket}, ticket ∈ world.live none → ∃ slot, world.Occupies slot ticket
  /-- A pooled server has one process or direct lease at most. -/
  exclusive : ∀ {slot first second}, world.Occupies slot first → world.Occupies slot second →
    first = second
  /-- When nothing is outstanding, every permit and every server is free. -/
  returned : world.Idle →
    (∀ category, (world.executor.gates category).available =
      (world.executor.gates category).capacity) ∧
    world.executor.pool.available = world.executor.pool.size

theorem Coherent.bounded (coherent : world.Coherent setup) : world.Bounded setup := by
  have permitted {category : Category} {ticket : Ticket}
      (alive : ticket ∈ world.live (some category)) :
      (world.executor.gates category).claims.get? ticket = some .held :=
    Gate.standing_eq_holding_iff.mp (coherent.holding_of_live alive)
  have balance (category : Category) := (coherent.settled.gates category).balance
  constructor
  case capacity => exact coherent.settled.permits
  case servers => exact coherent.settled.servers
  case permitted => exact permitted
  case balance => exact balance
  case live =>
    intro category
    -- Each of the processes has a permit of its own.
    have count : (world.live (some category)).length ≤
        (world.executor.gates category).holders.length := by
      refine (List.subperm_of_subset (coherent.nodup_live _) ?_).length_le
      intro ticket alive
      exact (coherent.settled.gates category).mem_holders.mpr (permitted alive)
    have balance := balance category
    omega
  case leased =>
    intro ticket alive
    obtain ⟨slot, leased⟩ := Pool.standing_eq_holding_iff.mp (coherent.holding_of_live alive)
    exact ⟨slot, leased, .inl alive⟩
  case exclusive =>
    intro slot first second one other
    exact coherent.settled.pool.eq_of_leased one.1 other.1
  case returned =>
    intro idle
    constructor
    · intro category
      have none : (world.executor.gates category).holders = [] := by
        refine List.eq_nil_iff_forall_not_mem.mpr ?_
        intro ticket member
        have held := (coherent.settled.gates category).mem_holders.mp member
        have holding : world.executor.standing (some category) ticket = .holding :=
          Gate.standing_eq_holding_iff.mpr held
        exact idle.permits (coherent.not_holding_of_idle idle.runs holding) category held
      have balance := balance category
      rwa [none, List.length_nil, Nat.add_zero] at balance
    · refine List.countP_eq_length.mpr ?_
      intro slot member
      obtain ⟨index, found⟩ := List.getElem?_of_mem member
      rw [decide_eq_true_eq]
      by_contra busy
      obtain ⟨ticket, leased⟩ :=
        coherent.settled.pool.exists_holder found (Nat.eq_zero_of_not_pos busy)
      have holding : world.executor.standing none ticket = .holding :=
        Pool.standing_eq_holding_iff.mpr ⟨index, leased⟩
      exact idle.leases (coherent.not_holding_of_idle idle.runs holding) index leased

/-- Whatever is done to an executor, it stays within what it was set up to serve. -/
theorem bounded_run (setup : Setup) (actions : List Action) :
    (World.run setup actions).Bounded setup :=
  (coherent_run setup actions).bounded

end World

end Turnstile
