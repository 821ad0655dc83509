import Turnstile.Proofs.Child.Accounting
import Turnstile.Proofs.Executor.Ledger

/-!
# What the operations of an executor keep

Every operation keeps the ledger, and accounts for the processes that were
started: while a supervision has not let go of its process, its run is active and
holds what it was let in with.
-/

namespace Turnstile

/-- The process of a run is accounted for, and its run is active as long as it is not let go of. -/
def Run.Accounted (reaped : Prop) (run : Run) : Prop :=
  ∀ supervision, run.supervision = some supervision →
    supervision.Accounted reaped ∧ (supervision.IsOpen → run.stage = .active)

/-- A process that is started has not been let go of. -/
theorem Runner.isOpen_of_start {runner : Runner} {now limit : Time} {argv : List String}
    {verdict : Except Refusal Unit} {spawned : Except String Answers} {supervision : Supervision}
    (started : runner.start now limit argv verdict spawned = .ok supervision) :
    supervision.IsOpen := by
  obtain ⟨-, answers, -, rfl⟩ := exists_supervise_of_start started
  exact .inl rfl

namespace Executor

/-- The processes of all runs are accounted for; `reaped` tells which ones have been reaped. -/
def Accounted (reaped : Ticket → Prop) (executor : Executor) : Prop :=
  ∀ ticket run, executor.run? ticket = some run → run.Accounted (reaped ticket)

/-- What every operation keeps. -/
structure Coherent (capacities : Capacities) (reaped : Ticket → Prop) (executor : Executor) :
    Prop where
  settled : executor.Settled capacities
  accounted : executor.Accounted reaped

variable {capacities : Capacities} {executor : Executor} {reaped : Ticket → Prop}

theorem Accounted.refresh (accounted : executor.Accounted reaped) :
    executor.refresh.Accounted reaped := by
  intro ticket later known supervision found
  rw [run?_refresh, Option.map_eq_some_iff] at known
  obtain ⟨run, known, rfl⟩ := known
  have told := told_advanced executor ticket run
  rw [told.supervision] at found
  obtain ⟨process, active⟩ := accounted _ _ known supervision found
  refine ⟨process, ?_⟩
  intro opened
  have stage := active opened
  rw [told.stage (by rw [stage]; nofun), stage]

theorem Accounted.setRun (accounted : executor.Accounted reaped) {ticket : Ticket} {later : Run}
    (own : later.Accounted (reaped ticket)) : (executor.setRun ticket later).Accounted reaped := by
  intro other found known
  rw [run?_setRun] at known
  split at known
  · rename_i same
    obtain ⟨_, _, rfl⟩ := Option.map_eq_some_iff.mp known
    exact same ▸ own
  · exact accounted _ _ known

theorem Accounted.vacate (accounted : executor.Accounted reaped) (ticket : Ticket)
    (place : Option Category) : (executor.vacate ticket place).Accounted reaped := by
  intro other run known
  rw [run?_vacate] at known
  exact accounted _ _ known

theorem begin_eq (executor : Executor) (category : Category) (request : Request) :
    (executor.begin category request).2 =
      (executor.enter
        { category, request, pooled := executor.usesPool category request.argv }).refresh := by
  unfold begin enter arrive Run.place
  cases executor.usesPool category request.argv <;> rfl

theorem pool_ne_empty_of_usesPool {category : Category} {argv : List String}
    (uses : executor.usesPool category argv = true) : 0 < executor.pool.size := by
  simp only [usesPool, Bool.and_eq_true, Bool.not_eq_true', Pool.isEmpty] at uses
  exact List.length_pos_iff.mpr fun empty => by simp [empty] at uses

namespace Coherent

/-- Of more processes it may be known that they have been reaped. -/
theorem mono (coherent : executor.Coherent capacities reaped) {known : Ticket → Prop}
    (sooner : ∀ ticket, reaped ticket → known ticket) : executor.Coherent capacities known where
  settled := coherent.settled
  accounted ticket run found supervision process := by
    obtain ⟨accounted, active⟩ := coherent.accounted _ _ found supervision process
    exact ⟨accounted.imp_right fun rest => rest.imp_left (sooner ticket), active⟩

/-- The ledger and the accounts do not depend on what is written down. -/
theorem write (coherent : executor.Coherent capacities reaped) (sink : Array Output.SinkLine)
    (log : Array LogLine) : { executor with sink, log }.Coherent capacities reaped :=
  ⟨{ coherent.settled with }, coherent.accounted⟩

/-! ## Tickets -/

theorem begin (coherent : executor.Coherent capacities reaped) (category : Category)
    (request : Request) :
    (executor.begin category request).2.Coherent capacities reaped := by
  rw [begin_eq]
  refine ⟨Ledger.refresh (coherent.settled.enter rfl fun uses => pool_ne_empty_of_usesPool uses),
    Accounted.refresh fun ticket run known => ?_⟩
  rw [run?_enter coherent.settled] at known
  split at known
  · cases known
    intro supervision found
    cases found
  · exact coherent.accounted _ _ known

theorem arrive (coherent : executor.Coherent capacities reaped) (place : Option Category) :
    (executor.arrive place).Coherent capacities reaped := by
  refine ⟨coherent.settled.arrive place, ?_⟩
  intro ticket run known
  rw [run?_arrive] at known
  exact coherent.accounted _ _ known

variable {ticket : Ticket}

theorem leaveGate (coherent : executor.Coherent capacities reaped)
    (direct : executor.run? ticket = none)
    (category : Category) : (executor.leaveGate category ticket).Coherent capacities reaped :=
  ⟨(coherent.settled.vacate direct (some category)).refresh,
    (coherent.accounted.vacate ticket (some category)).refresh⟩

theorem leavePool (coherent : executor.Coherent capacities reaped)
    (direct : executor.run? ticket = none) :
    (executor.leavePool ticket).Coherent capacities reaped :=
  ⟨(coherent.settled.vacate direct none).refresh, (coherent.accounted.vacate ticket none).refresh⟩

theorem closeLease (coherent : executor.Coherent capacities reaped)
    (direct : executor.run? ticket = none) :
    (executor.closeLease ticket).Coherent capacities reaped :=
  ⟨(coherent.settled.closeLease direct).refresh, Accounted.refresh coherent.accounted⟩

theorem shutdown (coherent : executor.Coherent capacities reaped) :
    executor.shutdown.Coherent capacities reaped :=
  have noted := coherent.write executor.sink
    (executor.log.push (.info "Shutting down tool executor"))
  ⟨noted.settled.close.refresh, Accounted.refresh coherent.accounted⟩

/-! ## Runs -/

variable {run later passed : Run}

/-- A run that is over gives back what it holds. -/
theorem leave (coherent : executor.Coherent capacities reaped)
    (known : executor.run? ticket = some run)
    (place : later.place = run.place) (pooled : later.pooled = run.pooled)
    (same : passed.place = run.place)
    (finished : ∀ {standing : Standing}, standing.IsOut → later.stage.Fits standing)
    (own : later.Accounted (reaped ticket)) :
    ((executor.setRun ticket later).leave ticket passed).Coherent capacities reaped := by
  rw [leave_setRun, same]
  exact ⟨(coherent.settled.depart known place pooled finished).refresh,
    ((coherent.accounted.vacate ticket run.place).setRun own).refresh⟩

/-- A run ends, and its supervision has let go of its process. -/
theorem finish (coherent : executor.Coherent capacities reaped)
    (known : executor.run? ticket = some run)
    (place : later.place = run.place) (pooled : later.pooled = run.pooled)
    (process : ∀ supervision, later.supervision = some supervision →
      supervision.Accounted (reaped ticket) ∧ ¬ supervision.IsOpen) (outcome : Outcome) :
    (executor.finish ticket later outcome).Coherent capacities reaped := by
  refine coherent.leave known place pooled place (fun out => .ended out) ?_
  intro supervision found
  obtain ⟨accounted, closed⟩ := process supervision found
  exact ⟨accounted, fun opened => absurd opened closed⟩

/-- A run goes on with its supervision, or ends with it. -/
theorem keep (coherent : executor.Coherent capacities reaped)
    (known : executor.run? ticket = some run)
    (place : later.place = run.place) (pooled : later.pooled = run.pooled)
    (fits : later.stage.Fits (executor.standing run.place ticket)) {supervision : Supervision}
    (accounted : supervision.Accounted (reaped ticket))
    (active : supervision.IsOpen → later.stage = .active) :
    (executor.keep ticket later supervision).Coherent capacities reaped := by
  simp only [Executor.keep]
  split
  · rename_i outcome _ finished
    refine coherent.finish known ?_ ?_ (fun process found => ?_) outcome
    · exact place
    · exact pooled
    · cases found
      exact ⟨accounted, Supervision.not_isOpen_of_outcome finished⟩
  · refine ⟨coherent.settled.setRun known place pooled fits,
      coherent.accounted.setRun fun process found => ?_⟩
    cases found
    exact ⟨accounted, active⟩

theorem launch (coherent : executor.Coherent capacities reaped) (now : Time)
    (probe : String → PathKind)
    (spawned : Except String Answers) :
    (executor.launch ticket now probe spawned).Coherent capacities reaped := by
  unfold Executor.launch
  cases known : executor.run? ticket with
  | none => exact coherent
  | some run =>
      cases stage : run.stage with
      | admitted request =>
          -- A run that was not started has no process to account for.
          have idle : ∀ supervision, run.supervision = some supervision →
              supervision.Accounted (reaped ticket) ∧ ¬ supervision.IsOpen := by
            intro supervision found
            obtain ⟨accounted, active⟩ := coherent.accounted _ _ known supervision found
            refine ⟨accounted, ?_⟩
            intro opened
            rw [stage] at active
            exact absurd (active opened) nofun
          have logged := coherent.write executor.sink
            (executor.log ++ Runner.attemptLog (executor.runner.check probe request.argv))
          simp only [stage]
          cases started : executor.runner.start now (executor.limitOf run) request.argv
              (executor.runner.check probe request.argv) spawned with
          | error failure => exact logged.finish known rfl rfl idle (.error failure)
          | ok supervision =>
              have fits := coherent.settled.fits known
              rw [stage] at fits
              refine logged.keep known ?_ ?_ ?_ (.inl (Runner.isOpen_of_start started)) ?_
              · rfl
              · rfl
              · exact fits.active_of_admitted
              · intro _
                rfl
      | _ => simpa [stage] using coherent

/-- The supervision of a run goes on without letting go of its process unaccounted for. -/
theorem supervise (coherent : executor.Coherent capacities reaped)
    {change : Supervision → Supervision}
    (goes : ∀ supervision, Supervision.LetsGo (reaped ticket) supervision (change supervision)) :
    (executor.supervise ticket change).Coherent capacities reaped := by
  unfold Executor.supervise
  cases known : executor.run? ticket with
  | none => exact coherent
  | some run =>
      cases process : run.supervision with
      | none => simpa [process] using coherent
      | some before =>
          simp only [process]
          obtain ⟨accounted, active⟩ := coherent.accounted _ _ known before process
          have kept (sink : Array Output.SinkLine) (log : Array LogLine) :
              ({ executor with sink, log }.keep ticket run (change before)).Coherent capacities
                reaped := by
            refine (coherent.write sink log).keep known rfl rfl (coherent.settled.fits known) ?_ ?_
            · exact (goes before).accounted id accounted
            · intro opened
              exact active ((goes before).taken opened)
          exact kept _ _

theorem elapse (coherent : executor.Coherent capacities reaped) (now : Time) :
    (executor.elapse now).Coherent capacities reaped := by
  unfold Executor.elapse
  generalize executor.runs.map Prod.fst = tickets
  induction tickets generalizing executor with
  | nil => exact coherent
  | cons ticket tickets ih =>
      exact ih (coherent.supervise fun supervision => supervision.letsGo_elapse now)

theorem abandon (coherent : executor.Coherent capacities reaped) (ticket : Ticket) :
    (executor.abandon ticket).Coherent capacities reaped := by
  unfold Executor.abandon
  cases known : executor.run? ticket with
  | none => exact coherent
  | some run =>
      let given := { run with
        stage := .cancelled
        supervision := run.supervision.map Supervision.abandon }
      have left : ((executor.setRun ticket given).leave ticket given).Coherent capacities
          reaped := by
        refine coherent.leave known rfl rfl rfl (fun out => .cancelled out) ?_
        intro later found
        obtain ⟨before, process, rfl⟩ := Option.map_eq_some_iff.mp found
        obtain ⟨accounted, _⟩ := coherent.accounted _ _ known before process
        exact ⟨(before.letsGo_abandon).accounted id accounted,
          fun opened => absurd opened before.not_isOpen_abandon⟩
      cases stage : run.stage with
      | ended outcome => simpa [stage] using coherent
      | cancelled => simpa [stage] using coherent
      | _ => simpa [stage] using left

end Coherent

end Executor

end Turnstile
