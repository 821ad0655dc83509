import Mathlib.Data.List.Induction
import Turnstile.Proofs.Executor.Moves
import Turnstile.Proofs.Executor.Process

/-!
# What an action makes of one run

A run that waits is let in or sent away by what happens at its gate or at the pool.
From then on nothing concerns it but what is done to itself and the passing of
time, and what these make of it is a function of the run alone.
-/

namespace Turnstile

/-- The request with its command pointed at a server. -/
def Request.pointedAt (request : Request) (server : Endpoint) : Request :=
  { request with argv := Endpoint.apply request.argv server }

namespace Run

/-! ## One run -/

/-- Why the run would be sent away. -/
def interruption (run : Run) : Failure :=
  if run.pooled then .waitingForEndpoint else .waitingForSlot run.category

/-- The run, sent away. -/
def interrupted (run : Run) : Run :=
  { run with stage := .ended (.error run.interruption) }

/-- What becomes of a run at its gate or at the pool of these servers. -/
inductive Proceeds (servers : List Endpoint) (run : Run) : Run → Prop where
  | stays : Proceeds servers run run
  | passed (waiting : run.stage = .waiting) (gated : run.pooled = false) :
      Proceeds servers run { run with stage := .admitted run.request }
  | leased {server : Endpoint} (waiting : run.stage = .waiting) (pooled : run.pooled = true)
      (member : server ∈ servers) :
      Proceeds servers run { run with stage := .admitted (run.request.pointedAt server) }
  | sentAway (waiting : run.stage = .waiting) : Proceeds servers run run.interrupted

/-- The run with its supervision, which ends an active run if it is over. -/
def kept (run : Run) (supervision : Supervision) : Run :=
  match run.stage, supervision.outcome? with
  | .active, some outcome => { run with supervision := some supervision, stage := .ended outcome }
  | _, _ => { run with supervision := some supervision }

/-- The run after its supervision went on, if it has one. -/
def supervised (change : Supervision → Supervision) (run : Run) : Run :=
  match run.supervision with
  | some before => run.kept (change before)
  | none => run

/-- The run after an attempt to start it, if it may be started. -/
def launched (runner : Runner) (limit now : Time) (probe : String → PathKind)
    (spawned : Except String Answers) (run : Run) : Run :=
  match run.stage with
  | .admitted request =>
    match runner.start now limit request.argv (runner.check probe request.argv) spawned with
    | .error failure => { run with stage := .ended (.error failure) }
    | .ok supervision => { run with stage := .active, supervision := some supervision }
  | _ => run

/-- The run after its caller gave up. -/
def givenUp (run : Run) : Run :=
  match run.stage with
  | .ended _ => run
  | .cancelled => run
  | _ => { run with stage := .cancelled, supervision := run.supervision.map Supervision.abandon }

/-- What an action makes of the run with this ticket. -/
def heed (runner : Runner) (limit : Time) (ticket : Ticket) (run : Run) : Action → Run
  | .launch who now probe spawned =>
    if who = ticket then run.launched runner limit now probe spawned else run
  | .observe who now event =>
    if who = ticket then run.supervised (·.observe now event) else run
  | .elapse now => run.supervised (·.elapse now)
  | .abandon who => if who = ticket then run.givenUp else run
  | _ => run

/-- What some actions make of the run with this ticket. -/
def heedAll (runner : Runner) (limit : Time) (ticket : Ticket) (run : Run)
    (actions : List Action) : Run :=
  actions.foldl (heed runner limit ticket) run

/-- Everything that can become of a run without its gate or the pool. -/
inductive Heeds (run : Run) : Run → Prop where
  | stays : Heeds run run
  | failed {request : Request} (failure : Failure) (admitted : run.stage = .admitted request) :
      Heeds run { run with stage := .ended (.error failure) }
  | started {request : Request} (supervision : Supervision)
      (admitted : run.stage = .admitted request) :
      Heeds run { run with stage := .active, supervision := some supervision }
  | watched {before : Supervision} (after : Supervision) (process : run.supervision = some before) :
      Heeds run { run with supervision := some after }
  | over {before after : Supervision} {outcome : Outcome} (active : run.stage = .active)
      (process : run.supervision = some before) (finished : after.outcome? = some outcome) :
      Heeds run { run with supervision := some after, stage := .ended outcome }
  | givenUp : Heeds run
      { run with stage := .cancelled, supervision := run.supervision.map Supervision.abandon }

variable {servers : List Endpoint} {run later : Run} {runner : Runner} {limit : Time}
  {ticket : Ticket}

theorem heeds_supervised (run : Run) (change : Supervision → Supervision) :
    run.Heeds (run.supervised change) := by
  unfold supervised
  split
  · rename_i before process
    unfold kept
    split
    · rename_i outcome active finished
      exact .over active process finished
    · exact .watched _ process
  · exact .stays

theorem heeds_launched (run : Run) (runner : Runner) (limit now : Time)
    (probe : String → PathKind) (spawned : Except String Answers) :
    run.Heeds (run.launched runner limit now probe spawned) := by
  unfold launched
  split
  · rename_i request admitted
    split
    · exact .failed _ admitted
    · exact .started _ admitted
  · exact .stays

theorem heeds_givenUp (run : Run) : run.Heeds run.givenUp := by
  unfold Run.givenUp
  split
  · exact .stays
  · exact .stays
  · exact .givenUp

theorem heeds_heed (runner : Runner) (limit : Time) (ticket : Ticket) (run : Run)
    (action : Action) : run.Heeds (run.heed runner limit ticket action) := by
  unfold heed
  split
  · split
    · exact heeds_launched run runner limit _ _ _
    · exact .stays
  · split
    · exact heeds_supervised run _
    · exact .stays
  · exact heeds_supervised run _
  · split
    · exact heeds_givenUp run
    · exact .stays
  · exact .stays

theorem Heeds.category (heeds : run.Heeds later) : later.category = run.category := by
  cases heeds <;> rfl

theorem Heeds.place (heeds : run.Heeds later) : later.place = run.place := by
  cases heeds <;> rfl

theorem Proceeds.place (proceeds : run.Proceeds servers later) : later.place = run.place := by
  cases proceeds <;> rfl

/-- A run that has been let in or sent away does not wait again. -/
theorem Heeds.told (heeds : run.Heeds later) (told : run.stage ≠ .waiting) :
    later.stage ≠ .waiting := by
  cases heeds with
  | stays => exact told
  | watched => exact told
  | _ => nofun

/-- A run that ends without a process stays as it is. -/
theorem heed_of_ended (idle : run.supervision = none) (outcome : Outcome) (action : Action) :
    heed runner limit ticket { run with stage := .ended outcome } action =
      { run with stage := .ended outcome } := by
  unfold heed
  split <;> simp [launched, supervised, givenUp, idle]

theorem heedAll_of_ended (idle : run.supervision = none) (outcome : Outcome)
    (actions : List Action) :
    heedAll runner limit ticket { run with stage := .ended outcome } actions =
      { run with stage := .ended outcome } := by
  induction actions with
  | nil => rfl
  | cons action actions ih =>
      rw [heedAll, List.foldl_cons, heed_of_ended idle]
      exact ih

theorem Proceeds.eq_of_told (proceeds : run.Proceeds servers later) (told : run.stage ≠ .waiting) :
    later = run := by
  cases proceeds with
  | stays => rfl
  | passed waiting => exact absurd waiting told
  | leased waiting => exact absurd waiting told
  | sentAway waiting => exact absurd waiting told

theorem Proceeds.trans {last : Run} (one : run.Proceeds servers later)
    (other : later.Proceeds servers last) : run.Proceeds servers last := by
  cases one with
  | stays => exact other
  | passed waiting gated => exact other.eq_of_told nofun ▸ .passed waiting gated
  | leased waiting pooled member => exact other.eq_of_told nofun ▸ .leased waiting pooled member
  | sentAway waiting => exact other.eq_of_told nofun ▸ .sentAway waiting

theorem supervised_of_not_active (change : Supervision → Supervision)
    (idle : run.stage ≠ .active) :
    run.supervised change = { run with supervision := run.supervision.map change } := by
  obtain ⟨category, request, pooled, stage, process⟩ := run
  cases process with
  | none => rfl
  | some before =>
      simp only [Run.supervised, kept]
      split
      · exact absurd rfl idle
      · rfl

/-- A run is let in together with its supervision. -/
theorem Proceeds.supervised (proceeds : run.Proceeds servers later)
    (change : Supervision → Supervision) :
    (run.supervised change).Proceeds servers (later.supervised change) := by
  have idle (waiting : run.stage = .waiting) : run.stage ≠ .active := by
    rw [waiting]
    nofun
  cases proceeds with
  | stays => exact .stays
  | passed waiting gated =>
      rw [supervised_of_not_active change (idle waiting),
        supervised_of_not_active change (by nofun)]
      exact .passed waiting gated
  | leased waiting pooled member =>
      rw [supervised_of_not_active change (idle waiting),
        supervised_of_not_active change (by nofun)]
      exact .leased waiting pooled member
  | sentAway waiting =>
      rw [supervised_of_not_active change (idle waiting),
        supervised_of_not_active change (by nofun)]
      exact .sentAway waiting

end Run

theorem Supervision.outcome?_of_isOpen {supervision : Supervision}
    (opened : supervision.IsOpen) : supervision.outcome? = none :=
  Option.eq_none_iff_forall_not_mem.mpr fun _ finished =>
    Supervision.not_isOpen_of_outcome finished opened

/-- Whether a command line leases a pooled server in place of passing its gate. -/
def Setup.usesPool (setup : Setup) (category : Category) (argv : List String) : Bool :=
  setup.build.usesPool category argv

namespace Executor

variable {executor : Executor} {ticket : Ticket}

/-- Where a run is sent depends on the executor only by how many servers it has. -/
theorem usesPool_congr {other : Executor} (servers : other.pool.size = executor.pool.size)
    (category : Category) (argv : List String) :
    other.usesPool category argv = executor.usesPool category argv := by
  have empty : other.pool.isEmpty = executor.pool.isEmpty := by
    rw [Pool.isEmpty, Pool.isEmpty, Bool.eq_iff_iff, List.isEmpty_iff_length_eq_zero,
      List.isEmpty_iff_length_eq_zero]
    exact Eq.congr_left servers
  rw [usesPool, usesPool, empty]

/-! ## The runs -/

/-- The run with a ticket becomes what `change` makes of it, and may be let in or sent away. -/
def Makes (before after : Executor) (ticket : Ticket) (change : Run → Run) : Prop :=
  ∃ fate : Run → Run, after.run? ticket = (before.run? ticket).map fate ∧
    ∀ run, (change run).Proceeds before.pool.endpoints (fate run)

namespace Makes

variable {before middle after : Executor} {change next : Run → Run}

theorem of_eq (same : after.run? ticket = (before.run? ticket).map change) :
    before.Makes after ticket change :=
  ⟨change, same, fun _ => .stays⟩

theorem same (same : after.run? ticket = before.run? ticket) : before.Makes after ticket id :=
  .of_eq (by rw [same, Option.map_id, id])

/-- What is written down makes nothing of a run. -/
theorem write {sink : Array Output.SinkLine} {log : Array LogLine}
    (makes : { before with sink, log }.Makes after ticket change) :
    before.Makes after ticket change :=
  makes

theorem trans (one : before.Makes middle ticket change) (other : middle.Makes after ticket next)
    (servers : middle.pool.endpoints = before.pool.endpoints)
    (carries : ∀ {run later : Run}, run.Proceeds before.pool.endpoints later →
      (next run).Proceeds before.pool.endpoints (next later)) :
    before.Makes after ticket (next ∘ change) := by
  obtain ⟨first, middle_run, proceeds⟩ := one
  obtain ⟨second, after_run, goes⟩ := other
  refine ⟨second ∘ first, by rw [after_run, middle_run, Option.map_map], fun run => ?_⟩
  exact (carries (proceeds run)).trans (servers ▸ goes (first run))

end Makes

/-- A run that waits is told what its gate or the pool has made of it. -/
theorem proceeds_advanced (pool : executor.pool.Consistent) (ticket : Ticket) (run : Run) :
    run.Proceeds executor.pool.endpoints (executor.advanced ticket run) := by
  unfold advanced
  split
  · rename_i waiting
    split
    · rename_i pooled
      split
      · rename_i slot isOpen leased
        refine .leased waiting pooled ?_
        obtain ⟨found, here⟩ := Pool.exists_slot (pool.placed leased rfl)
        exact List.mem_map.mpr ⟨found, List.mem_of_getElem? here, by simp [Pool.endpointAt, here]⟩
      · have away : run.Proceeds executor.pool.endpoints run.interrupted := .sentAway waiting
        simpa [Run.interrupted, Run.interruption, pooled] using away
      · exact .stays
    · rename_i gated
      rw [Bool.not_eq_true] at gated
      split
      · exact .passed waiting gated
      · have away : run.Proceeds executor.pool.endpoints run.interrupted := .sentAway waiting
        simpa [Run.interrupted, Run.interruption, gated] using away
      · exact .stays
  · exact .stays

/-- Something happens at gates and at the pool, and the runs are told. -/
theorem makes_refresh {middle : Executor} (pool : executor.pool.Consistent)
    (leads : executor.Leads middle) (same : middle.run? ticket = executor.run? ticket) :
    executor.Makes middle.refresh ticket id := by
  refine ⟨middle.advanced ticket, by rw [run?_refresh, same], fun run => ?_⟩
  rw [← leads.endpoints pool]
  exact proceeds_advanced (leads.consistent pool) ticket run

/-! ## What is done to other runs -/

section Others

variable {other : Ticket}

theorem makes_leave_of_ne (pool : executor.pool.Consistent) (different : ticket ≠ other)
    (run later : Run) :
    executor.Makes ((executor.setRun other later).leave other run) ticket id := by
  rw [leave_setRun]
  refine makes_refresh pool ((Leads.vacate executor other run.place).trans (.of_eq rfl rfl rfl)) ?_
  rw [run?_setRun, if_neg different, run?_vacate]

theorem makes_keep_of_ne (pool : executor.pool.Consistent) (different : ticket ≠ other)
    (run : Run) (supervision : Supervision) :
    executor.Makes (executor.keep other run supervision) ticket id := by
  simp only [keep]
  split
  · exact makes_leave_of_ne pool different _ _
  · exact .same (by rw [run?_setRun, if_neg different])

theorem makes_supervise_of_ne (pool : executor.pool.Consistent) (different : ticket ≠ other)
    (change : Supervision → Supervision) :
    executor.Makes (executor.supervise other change) ticket id := by
  unfold supervise
  split
  · split
    · refine .write (makes_keep_of_ne ?_ different _ _)
      exact pool
    · exact .same rfl
  · exact .same rfl

theorem makes_launch_of_ne (pool : executor.pool.Consistent) (different : ticket ≠ other)
    (now : Time) (probe : String → PathKind) (spawned : Except String Answers) :
    executor.Makes (executor.launch other now probe spawned) ticket id := by
  unfold launch
  split
  · split
    · simp only []
      split
      · refine .write (makes_leave_of_ne ?_ different _ _)
        exact pool
      · refine .write (makes_keep_of_ne ?_ different _ _)
        exact pool
    · exact .same rfl
  · exact .same rfl

theorem makes_abandon_of_ne (pool : executor.pool.Consistent) (different : ticket ≠ other) :
    executor.Makes (executor.abandon other) ticket id := by
  unfold abandon
  split
  · split
    · exact .same rfl
    · exact .same rfl
    · exact makes_leave_of_ne pool different _ _
  · exact .same rfl

end Others

/-! ## What is done to the run itself -/

section Own

variable {run : Run}

theorem run?_keep_self (known : executor.run? ticket = some run) (sink : Array Output.SinkLine)
    (log : Array LogLine) (later : Run) (supervision : Supervision) :
    ({ executor with sink, log }.keep ticket later supervision).run? ticket =
      some (later.kept supervision) := by
  have known : { executor with sink, log }.run? ticket = some run := known
  simp only [keep, Run.kept]
  cases later.stage with
  | active =>
      cases supervision.outcome? with
      | none => exact run?_setRun_self known
      | some outcome => exact run?_finish_self known outcome
  | _ => exact run?_setRun_self known

theorem run?_supervise_self (executor : Executor) (ticket : Ticket)
    (change : Supervision → Supervision) :
    (executor.supervise ticket change).run? ticket =
      (executor.run? ticket).map (Run.supervised change) := by
  cases known : executor.run? ticket with
  | none => simp [supervise, known]
  | some run =>
      cases process : run.supervision with
      | none => simp [supervise, known, process, Run.supervised]
      | some before =>
          simp only [supervise, known, process, Option.map_some, Run.supervised]
          exact run?_keep_self known _ _ _ _

theorem run?_launch_self (executor : Executor) (ticket : Ticket) (now : Time)
    (probe : String → PathKind) (spawned : Except String Answers) :
    (executor.launch ticket now probe spawned).run? ticket = (executor.run? ticket).map
      fun run => run.launched executor.runner (executor.limitOf run) now probe spawned := by
  cases known : executor.run? ticket with
  | none => simp [launch, known]
  | some run =>
      cases stage : run.stage with
      | admitted request =>
          simp only [launch, known, stage, Option.map_some, Run.launched]
          cases started : executor.runner.start now (executor.limitOf run) request.argv
              (executor.runner.check probe request.argv) spawned with
          | error failure =>
              have logged (log : Array LogLine) : { executor with log }.run? ticket = some run :=
                known
              exact run?_finish_self (logged _) _
          | ok supervision =>
              have running := Supervision.outcome?_of_isOpen (Runner.isOpen_of_start started)
              have begun := run?_keep_self known executor.sink (executor.log ++
                Runner.attemptLog (executor.runner.check probe request.argv))
                { run with stage := .active } supervision
              simpa only [Run.kept, running] using begun
      | _ => simp [launch, known, stage, Run.launched]

theorem run?_abandon_self (executor : Executor) (ticket : Ticket) :
    (executor.abandon ticket).run? ticket = (executor.run? ticket).map Run.givenUp := by
  cases known : executor.run? ticket with
  | none => simp [abandon, known]
  | some run =>
      have left (given : Run) (told : given.stage ≠ .waiting) :
          ((executor.setRun ticket given).leave ticket given).run? ticket = some given := by
        rw [leave_setRun]
        refine run?_refresh_of_ne_waiting ?_ told
        rw [run?_setRun, if_pos rfl, run?_vacate, known, Option.map_some]
      cases stage : run.stage with
      | ended outcome => simp [abandon, known, stage, Run.givenUp]
      | cancelled => simp [abandon, known, stage, Run.givenUp]
      | _ =>
          simp only [abandon, known, stage, Option.map_some, Run.givenUp]
          exact left _ nofun

end Own

/-- Time passes for every run once. -/
theorem makes_elapse_all {capacities : Capacities} {reaped : Ticket → Prop}
    (coherent : executor.Coherent capacities reaped) (ticket : Ticket) (now : Time)
    {tickets : List Ticket} (distinct : tickets.Nodup) :
    executor.Makes
      (tickets.foldl (fun executor ticket => executor.supervise ticket (·.elapse now)) executor)
      ticket (if ticket ∈ tickets then Run.supervised (·.elapse now) else id) := by
  induction tickets generalizing executor with
  | nil => exact .same rfl
  | cons first tickets ih =>
      obtain ⟨fresh, distinct⟩ := List.nodup_cons.mp distinct
      have supervised : (executor.supervise first (·.elapse now)).Coherent capacities reaped :=
        coherent.supervise fun supervision => supervision.letsGo_elapse now
      have rest := ih supervised distinct
      have servers :=
        (Leads.supervise executor first (·.elapse now)).endpoints coherent.settled.pool
      by_cases own : ticket = first
      · subst own
        have one : executor.Makes (executor.supervise ticket (·.elapse now)) ticket
            (Run.supervised (·.elapse now)) := .of_eq (run?_supervise_self executor ticket _)
        rw [if_neg fresh] at rest
        rw [if_pos List.mem_cons_self]
        exact one.trans rest servers id
      · have one := makes_supervise_of_ne coherent.settled.pool own (·.elapse now)
        by_cases later : ticket ∈ tickets
        · rw [if_pos later] at rest
          rw [if_pos (List.mem_cons_of_mem first later)]
          exact one.trans rest servers fun proceeds => proceeds.supervised _
        · rw [if_neg later] at rest
          rw [if_neg (List.not_mem_cons_of_ne_of_not_mem own later)]
          exact one.trans rest servers id

theorem makes_elapse {capacities : Capacities} {reaped : Ticket → Prop}
    (coherent : executor.Coherent capacities reaped) (ticket : Ticket) (now : Time) :
    executor.Makes (executor.elapse now) ticket (Run.supervised (·.elapse now)) := by
  have all := makes_elapse_all coherent ticket now coherent.settled.names
  by_cases member : ticket ∈ Claims.names executor.runs
  · rwa [if_pos member] at all
  · have unknown : executor.run? ticket = none := Claims.get?_eq_none_iff.mpr member
    obtain ⟨_, same, _⟩ := all
    rw [unknown] at same
    exact .of_eq (by rw [unknown]; exact same)

end Executor

namespace World

variable {setup : Setup} {world : World} {ticket : Ticket} {run : Run}

namespace Coherent

/-- What an action makes of every run that does not come with it. -/
theorem makes_step (coherent : world.Coherent setup) {action : Action}
    (old : ticket ≠ world.executor.issued ∨ ∀ category request, action ≠ .begin category request) :
    world.executor.Makes (world.step action).executor ticket fun run =>
      run.heed world.executor.runner (world.executor.limitOf run) ticket action := by
  have pool := coherent.settled.pool
  have direct (other : Ticket) (change : Executor → Executor)
      (makes : world.executor.Makes (change world.executor) ticket id) :
      world.executor.Makes (world.direct other change).executor ticket id := by
    unfold World.direct
    split
    · exact .same rfl
    · exact makes
  have vacate (other : Ticket) (place : Option Category) :
      world.executor.Makes (world.executor.vacate other place).refresh ticket id :=
    Executor.makes_refresh pool (.vacate world.executor other place)
      (Executor.run?_vacate world.executor other ticket place)
  cases action with
  | begin category request =>
      have begun := Executor.begin_eq world.executor category request
      simp only [World.step, begun]
      refine Executor.makes_refresh pool (.enter world.executor _) ?_
      rw [Executor.run?_enter coherent.settled,
        if_neg (old.resolve_right fun other => other category request rfl)]
  | hold category => exact .same (Executor.run?_arrive world.executor (some category) ticket)
  | lease => exact .same (Executor.run?_arrive world.executor none ticket)
  | release category other => exact direct other _ (vacate other (some category))
  | closeLease other =>
      refine direct other _ (Executor.makes_refresh pool ?_ ?_)
      · exact .closeLease world.executor other
      · rfl
  | dropLease other => exact direct other _ (vacate other none)
  | launch other now probe spawned =>
      by_cases own : other = ticket
      · subst own
        simp only [Run.heed, if_true]
        exact .of_eq (Executor.run?_launch_self world.executor other now probe spawned)
      · simp only [Run.heed, own, if_false]
        exact Executor.makes_launch_of_ne pool (Ne.symm own) now probe spawned
  | observe other now event =>
      by_cases own : other = ticket
      · subst own
        simp only [Run.heed, if_true]
        exact .of_eq (Executor.run?_supervise_self world.executor other _)
      · simp only [Run.heed, own, if_false]
        exact Executor.makes_supervise_of_ne pool (Ne.symm own) _
  | elapse now => exact Executor.makes_elapse coherent ticket now
  | abandon other =>
      by_cases own : other = ticket
      · subst own
        simp only [Run.heed, if_true]
        exact .of_eq (Executor.run?_abandon_self world.executor other)
      · simp only [Run.heed, own, if_false]
        exact Executor.makes_abandon_of_ne pool (Ne.symm own)
  | shutdown => exact Executor.makes_refresh pool (.close world.executor _) rfl

/-- A run that was let in or sent away is concerned by what is done to it, and by nothing else. -/
theorem run?_step_of_told (coherent : world.Coherent setup)
    (known : world.executor.run? ticket = some run) (told : run.stage ≠ .waiting)
    (action : Action) : (world.step action).executor.run? ticket =
      some (run.heed world.executor.runner (world.executor.limitOf run) ticket action) := by
  have old : ticket ≠ world.executor.issued := Nat.ne_of_lt (coherent.settled.issued known)
  obtain ⟨fate, same, proceeds⟩ := coherent.makes_step (.inl old)
  rw [same, known, Option.map_some,
    (proceeds run).eq_of_told ((run.heeds_heed _ _ _ _).told told)]

theorem run?_through_of_told (coherent : world.Coherent setup)
    (known : world.executor.run? ticket = some run) (told : run.stage ≠ .waiting)
    (actions : List Action) : (world.through actions).executor.run? ticket =
      some (run.heedAll world.executor.runner (world.executor.limitOf run) ticket actions) := by
  induction actions generalizing world run with
  | nil => exact known
  | cons action actions ih =>
      have leads := leads_step world action
      have heeds := run.heeds_heed world.executor.runner (world.executor.limitOf run) ticket action
      have rest := ih (coherent.step action) (coherent.run?_step_of_told known told action)
        (heeds.told told)
      rwa [leads.runner, leads.limitOf coherent.settled.gates, Executor.limitOf, heeds.category]
        at rest

end Coherent

/-! ## Every run -/

/-- A run that comes is let in, sent away or made to wait. -/
theorem Coherent.proceeds_begin (coherent : world.Coherent setup) {category : Category}
    {request : Request} {later : Run}
    (known : (world.step (.begin category request)).executor.run? world.executor.issued =
      some later) :
    Run.Proceeds world.executor.pool.endpoints
      { category, request, pooled := world.executor.usesPool category request.argv } later := by
  have pool := coherent.settled.pool
  simp only [World.step, Executor.begin_eq] at known
  rw [Executor.run?_refresh, Executor.run?_enter coherent.settled, if_pos rfl,
    Option.map_some] at known
  have leads := Executor.Leads.enter world.executor
    { category, request, pooled := world.executor.usesPool category request.argv }
  rw [← leads.endpoints pool, ← Option.some.inj known]
  exact Executor.proceeds_advanced (leads.consistent pool) _ _

/-- Where a new run is sent is the same in every state. -/
theorem Coherent.usesPool (coherent : world.Coherent setup) (category : Category)
    (argv : List String) :
    world.executor.usesPool category argv = setup.usesPool category argv :=
  Executor.usesPool_congr
    (coherent.settled.servers.trans (coherent_build setup).settled.servers.symm) category argv

/-- What holds of every new run, and is kept by what is done, holds of every run in every state. -/
theorem forall_run_of_heed (holds : Run → Prop)
    (new : ∀ category request,
      holds { category, request, pooled := setup.usesPool category request.argv })
    (proceeds : ∀ {run later}, holds run → run.Proceeds setup.resolved.1 later → holds later)
    (heed : ∀ {run} limit ticket action, holds run →
      holds (run.heed setup.runner limit ticket action)) (actions : List Action)
    (known : (World.run setup actions).executor.run? ticket = some run) : holds run := by
  induction actions using List.reverseRecOn generalizing ticket run with
  | nil => cases known
  | append_singleton actions action ih =>
      have coherent := coherent_run setup actions
      have servers := endpoints_run setup actions
      rw [run_append] at known
      change ((World.run setup actions).step action).executor.run? ticket = some run at known
      by_cases old : ticket ≠ (World.run setup actions).executor.issued ∨
          ∀ category request, action ≠ .begin category request
      · obtain ⟨fate, same, goes⟩ := coherent.makes_step old
        rw [same, Option.map_eq_some_iff] at known
        obtain ⟨before, known, rfl⟩ := known
        have goes := servers ▸ goes before
        rw [runner_run] at goes
        exact proceeds (heed _ _ _ (ih known)) goes
      · obtain ⟨comes, begins⟩ := not_or.mp old
        obtain ⟨category, request, rfl⟩ : ∃ category request, action = .begin category request := by
          simpa using begins
        obtain rfl := not_ne_iff.mp comes
        have goes := servers ▸ coherent.proceeds_begin known
        rw [coherent.usesPool] at goes
        exact proceeds (new _ _) goes

/-- What holds of every new run, and is kept, holds of every run in every state. -/
theorem forall_run (holds : Run → Prop)
    (new : ∀ (executor : Executor) category request,
      holds { category, request, pooled := executor.usesPool category request.argv })
    (proceeds : ∀ {run later}, holds run → run.Proceeds setup.resolved.1 later → holds later)
    (heeds : ∀ {run later}, holds run → run.Heeds later → holds later) (actions : List Action)
    (known : (World.run setup actions).executor.run? ticket = some run) : holds run :=
  forall_run_of_heed holds (new setup.build) proceeds
    (fun limit ticket action before => heeds before (Run.heeds_heed _ limit ticket _ action))
    actions known

/-- A run that has not been started has no process, and is let in with what it asked for. -/
structure Faithful (servers : List Endpoint) (run : Run) : Prop where
  /-- Only requests of the server-aware client are sent to the pool. -/
  client : run.pooled = true → run.category = .libreOffice ∧
    ∃ executable arguments, run.request.argv = executable :: arguments ∧
      Executor.isServerClient executable = true
  waiting : run.stage = .waiting → run.supervision = none
  admitted : ∀ {request}, run.stage = .admitted request → run.supervision = none ∧
    (run.pooled = false ∧ request = run.request ∨
      run.pooled = true ∧ ∃ server ∈ servers, request = run.request.pointedAt server)

theorem client_of_usesPool {executor : Executor} {category : Category} {argv : List String}
    (uses : executor.usesPool category argv = true) : category = .libreOffice ∧
      ∃ executable arguments, argv = executable :: arguments ∧
        Executor.isServerClient executable = true := by
  simp only [Executor.usesPool, Bool.and_eq_true, beq_iff_eq] at uses
  obtain ⟨⟨office, _⟩, client⟩ := uses
  cases argv with
  | nil => cases client
  | cons executable arguments =>
      rw [List.head?_cons, Option.any_some] at client
      exact ⟨office, executable, arguments, rfl, client⟩

theorem faithful_run (actions : List Action)
    (known : (World.run setup actions).executor.run? ticket = some run) :
    Faithful setup.resolved.1 run := by
  refine forall_run (Faithful setup.resolved.1) ?_ ?_ ?_ actions known
  · exact fun executor category request => ⟨client_of_usesPool, fun _ => rfl, nofun⟩
  · intro run later faithful proceeds
    cases proceeds with
    | stays => exact faithful
    | passed waiting gated =>
        refine ⟨faithful.client, nofun, ?_⟩
        rintro _ ⟨⟩
        exact ⟨faithful.waiting waiting, .inl ⟨gated, rfl⟩⟩
    | leased waiting pooled member =>
        refine ⟨faithful.client, nofun, ?_⟩
        rintro _ ⟨⟩
        exact ⟨faithful.waiting waiting, .inr ⟨pooled, _, member, rfl⟩⟩
    | sentAway waiting => exact ⟨faithful.client, nofun, nofun⟩
  · intro run later faithful heeds
    cases heeds with
    | stays => exact faithful
    | watched after process =>
        refine ⟨faithful.client, ?_, ?_⟩
        · intro waiting
          rw [faithful.waiting waiting] at process
          cases process
        · intro request admitted
          rw [(faithful.admitted admitted).1] at process
          cases process
    | _ => exact ⟨faithful.client, nofun, nofun⟩

end World

end Turnstile
