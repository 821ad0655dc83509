import Turnstile.Proofs.Executor.Admission
import Turnstile.Proofs.Gate.Moves
import Turnstile.Proofs.Pool.Servers

/-!
# What an action does at the gates and at the pool

Whatever is done to an executor, at each of its gates and at its pool it comes down
to what callers do there.  What no caller can change stays: the runner, the limits
of the gates and the servers of the pool.
-/

namespace Turnstile

namespace Executor

/-- What callers did at gates and at the pool leads from one state to another. -/
structure Leads (before after : Executor) : Prop where
  runner : after.runner = before.runner
  gates : ∀ category, ∃ actions, after.gates category = (before.gates category).run actions
  pool : ∃ actions, after.pool = before.pool.run actions

namespace Leads

variable {before middle after : Executor}

theorem of_eq (runner : after.runner = before.runner) (gates : after.gates = before.gates)
    (pool : after.pool = before.pool) : before.Leads after where
  runner := runner
  gates category := ⟨[], by rw [gates]; rfl⟩
  pool := ⟨[], pool⟩

theorem trans (one : before.Leads middle) (other : middle.Leads after) : before.Leads after where
  runner := other.runner.trans one.runner
  gates category := by
    obtain ⟨first, middle⟩ := one.gates category
    obtain ⟨second, after⟩ := other.gates category
    exact ⟨first ++ second, by rw [after, middle, Gate.run_append]⟩
  pool := by
    obtain ⟨first, middle⟩ := one.pool
    obtain ⟨second, after⟩ := other.pool
    exact ⟨first ++ second, by rw [after, middle, Pool.run_append]⟩

/-- Telling the runs is not something that callers do. -/
theorem refresh (leads : before.Leads middle) : before.Leads middle.refresh :=
  leads.trans (.of_eq rfl rfl rfl)

theorem of_pool (actions : List (Pool.Action Ticket)) (runner : after.runner = before.runner)
    (gates : after.gates = before.gates) (pool : after.pool = before.pool.run actions) :
    before.Leads after where
  runner := runner
  gates category := ⟨[], by rw [gates]; rfl⟩
  pool := ⟨actions, pool⟩

theorem setGate (executor : Executor) (category : Category)
    (actions : List (Gate.Action Ticket)) :
    executor.Leads (executor.setGate category ((executor.gates category).run actions)) where
  runner := rfl
  gates other := by
    rw [gates_setGate]
    split
    · rename_i same
      exact ⟨actions, by rw [same]⟩
    · exact ⟨[], rfl⟩
  pool := ⟨[], rfl⟩

theorem write (executor : Executor) (sink : Array Output.SinkLine) (log : Array LogLine) :
    executor.Leads { executor with sink, log } :=
  .of_eq rfl rfl rfl

theorem vacate (executor : Executor) (ticket : Ticket) (place : Option Category) :
    executor.Leads (executor.vacate ticket place) := by
  cases place with
  | none => exact .of_pool [.cancel ticket, .drop ticket] rfl rfl rfl
  | some category => exact setGate executor category [.cancel ticket, .release ticket]

theorem arrive (executor : Executor) (place : Option Category) :
    executor.Leads (executor.arrive place) := by
  cases place with
  | none => exact .of_pool [.acquire executor.issued] rfl rfl rfl
  | some category =>
      exact (setGate executor category [.acquire executor.issued]).trans (.of_eq rfl rfl rfl)

theorem enter (executor : Executor) (run : Run) : executor.Leads (executor.enter run) :=
  (arrive executor run.place).trans (.of_eq rfl rfl rfl)

theorem closeLease (executor : Executor) (ticket : Ticket) :
    executor.Leads { executor with pool := executor.pool.closeLease ticket } :=
  .of_pool [.closeLease ticket] rfl rfl rfl

/-- The gates and the pool close. -/
theorem close (executor : Executor) (log : Array LogLine) :
    executor.Leads { executor with
      gates := fun category => (executor.gates category).close
      pool := executor.pool.close
      log } where
  runner := rfl
  gates _ := ⟨[.close], rfl⟩
  pool := ⟨[.close], rfl⟩

theorem finish (executor : Executor) (ticket : Ticket) (run : Run) (outcome : Outcome) :
    executor.Leads (executor.finish ticket run outcome) := by
  rw [Executor.finish, leave_setRun]
  exact (vacate executor ticket run.place).trans (.of_eq rfl rfl rfl)

theorem keep (executor : Executor) (ticket : Ticket) (run : Run) (supervision : Supervision) :
    executor.Leads (executor.keep ticket run supervision) := by
  simp only [Executor.keep]
  split
  · exact finish executor ticket _ _
  · exact .of_eq rfl rfl rfl

theorem launch (executor : Executor) (ticket : Ticket) (now : Time) (probe : String → PathKind)
    (spawned : Except String Answers) :
    executor.Leads (executor.launch ticket now probe spawned) := by
  unfold Executor.launch
  split
  · split
    · simp only []
      split
      · exact (write executor _ _).trans (finish _ ticket _ _)
      · exact (write executor _ _).trans (keep _ ticket _ _)
    · exact .of_eq rfl rfl rfl
  · exact .of_eq rfl rfl rfl

theorem supervise (executor : Executor) (ticket : Ticket) (change : Supervision → Supervision) :
    executor.Leads (executor.supervise ticket change) := by
  unfold Executor.supervise
  split
  · split
    · exact (write executor _ _).trans (keep _ ticket _ _)
    · exact .of_eq rfl rfl rfl
  · exact .of_eq rfl rfl rfl

theorem elapse (executor : Executor) (now : Time) : executor.Leads (executor.elapse now) := by
  unfold Executor.elapse
  generalize executor.runs.map Prod.fst = tickets
  induction tickets generalizing executor with
  | nil => exact .of_eq rfl rfl rfl
  | cons ticket tickets ih => exact (supervise executor ticket _).trans (ih _)

theorem abandon (executor : Executor) (ticket : Ticket) :
    executor.Leads (executor.abandon ticket) := by
  unfold Executor.abandon
  split
  · split
    · exact .of_eq rfl rfl rfl
    · exact .of_eq rfl rfl rfl
    · rw [leave_setRun]
      exact (vacate executor ticket _).trans (.of_eq rfl rfl rfl)
  · exact .of_eq rfl rfl rfl

/-- The limits of a gate and the servers of the pool never change. -/
theorem limitOf (leads : before.Leads after)
    (gates : ∀ category, (before.gates category).Consistent) (run : Run) :
    after.limitOf run = before.limitOf run := by
  obtain ⟨actions, same⟩ := leads.gates run.category
  rw [Executor.limitOf, Executor.limitOf, same, ((gates run.category).terms_run actions).2]

theorem consistent (leads : before.Leads after) (pool : before.pool.Consistent) :
    after.pool.Consistent := by
  obtain ⟨actions, same⟩ := leads.pool
  rw [same]
  exact pool.run actions

theorem endpoints (leads : before.Leads after) (pool : before.pool.Consistent) :
    after.pool.endpoints = before.pool.endpoints := by
  obtain ⟨actions, same⟩ := leads.pool
  rw [same, pool.endpoints_run]

end Leads

end Executor

namespace World

/-- What a state comes to by some actions. -/
def through (world : World) (actions : List Action) : World :=
  actions.foldl step world

theorem run_append (setup : Setup) (actions more : List Action) :
    World.run setup (actions ++ more) = (World.run setup actions).through more :=
  List.foldl_append

theorem leads_step (world : World) (action : Action) :
    world.executor.Leads (world.step action).executor := by
  have direct (ticket : Ticket) (change : Executor → Executor)
      (leads : world.executor.Leads (change world.executor)) :
      world.executor.Leads (world.direct ticket change).executor := by
    unfold World.direct
    split
    · exact .of_eq rfl rfl rfl
    · exact leads
  cases action with
  | begin category request =>
      simp only [step, Executor.begin_eq]
      exact (Executor.Leads.enter world.executor _).refresh
  | hold category => exact .arrive world.executor (some category)
  | lease => exact .arrive world.executor none
  | release category ticket =>
      exact direct ticket _ (Executor.Leads.vacate world.executor ticket (some category)).refresh
  | closeLease ticket =>
      exact direct ticket _ (Executor.Leads.closeLease world.executor ticket).refresh
  | dropLease ticket =>
      exact direct ticket _ (Executor.Leads.vacate world.executor ticket none).refresh
  | launch ticket now probe spawned => exact .launch world.executor ticket now probe spawned
  | observe ticket now event => exact .supervise world.executor ticket _
  | elapse now => exact .elapse world.executor now
  | abandon ticket => exact .abandon world.executor ticket
  | shutdown => exact (Executor.Leads.close world.executor _).refresh

theorem leads_through (world : World) (actions : List Action) :
    world.executor.Leads (world.through actions).executor := by
  induction actions generalizing world with
  | nil => exact .of_eq rfl rfl rfl
  | cons action actions ih => exact (leads_step world action).trans (ih _)

theorem runner_run (setup : Setup) (actions : List Action) :
    (World.run setup actions).executor.runner = setup.runner :=
  (leads_through { executor := setup.build } actions).runner

theorem endpoints_run (setup : Setup) (actions : List Action) :
    (World.run setup actions).executor.pool.endpoints = setup.resolved.1 :=
  ((leads_through { executor := setup.build } actions).endpoints (.of _)).trans
    (Pool.endpoints_of _)

theorem Coherent.through {setup : Setup} {world : World} (coherent : world.Coherent setup)
    (actions : List Action) : (world.through actions).Coherent setup := by
  induction actions generalizing world with
  | nil => exact coherent
  | cons action actions ih => exact ih (coherent.step action)

end World

end Turnstile
