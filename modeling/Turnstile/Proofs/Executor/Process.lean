import Turnstile.Proofs.Child.Timeline
import Turnstile.Proofs.Executor.Ledger

/-!
# One run among others

A run goes on as its supervision does.  What becomes of the other runs does not
concern it once it has been let in, and a run without a process does nothing more.
-/

namespace Turnstile.Executor

variable {executor : Executor} {ticket other : Ticket} {run later : Run}

theorem run?_refresh_of_ne_waiting (known : executor.run? ticket = some run)
    (told : run.stage ≠ .waiting) : executor.refresh.run? ticket = some run := by
  rw [run?_refresh, known, Option.map_some, (told_advanced executor ticket run).stage told]

theorem run?_setRun_self (known : executor.run? ticket = some run) :
    (executor.setRun ticket later).run? ticket = some later := by
  rw [run?_setRun, if_pos rfl, known, Option.map_some]

theorem run?_finish_self (known : executor.run? ticket = some run) (outcome : Outcome) :
    (executor.finish ticket later outcome).run? ticket =
      some { later with stage := .ended outcome } := by
  have vacated := (run?_vacate executor ticket ticket later.place).trans known
  rw [finish, leave_setRun]
  exact run?_refresh_of_ne_waiting (run?_setRun_self vacated) nofun

theorem run?_finish_of_ne (different : other ≠ ticket) (known : executor.run? other = some run)
    (told : run.stage ≠ .waiting) (outcome : Outcome) :
    (executor.finish ticket later outcome).run? other = some run := by
  rw [finish, leave_setRun]
  refine run?_refresh_of_ne_waiting ?_ told
  rw [run?_setRun, if_neg different, run?_vacate]
  exact known

theorem sink_finish (executor : Executor) (ticket : Ticket) (run : Run) (outcome : Outcome) :
    (executor.finish ticket run outcome).sink = executor.sink := by
  unfold finish leave
  split <;> rfl

theorem run?_keep_of_ne (different : other ≠ ticket) (known : executor.run? other = some run)
    (told : run.stage ≠ .waiting) (supervision : Supervision) :
    (executor.keep ticket later supervision).run? other = some run := by
  simp only [keep]
  split
  · exact run?_finish_of_ne different known told _
  · rw [run?_setRun, if_neg different, known]

theorem sink_keep (executor : Executor) (ticket : Ticket) (run : Run) (supervision : Supervision) :
    (executor.keep ticket run supervision).sink = executor.sink := by
  simp only [keep]
  split
  · exact sink_finish executor ticket _ _
  · rfl

theorem run?_supervise_of_ne (different : other ≠ ticket) (known : executor.run? other = some run)
    (told : run.stage ≠ .waiting) (change : Supervision → Supervision) :
    (executor.supervise ticket change).run? other = some run := by
  unfold supervise
  cases executor.run? ticket with
  | none => exact known
  | some found =>
      cases process : found.supervision with
      | none => simpa [process] using known
      | some before =>
          simp only [process]
          refine run?_keep_of_ne different ?_ told _
          exact known

/-- A run without a process has nothing to go on with. -/
theorem supervise_of_idle (known : executor.run? ticket = some run)
    (idle : run.supervision = none) (change : Supervision → Supervision) :
    executor.supervise ticket change = executor := by
  simp [supervise, known, idle]

/-- A supervision that gives nothing to the sink leaves that of the executor alone. -/
theorem sink_supervise {change : Supervision → Supervision}
    (silent : ∀ supervision, (change supervision).sink = supervision.sink) :
    (executor.supervise ticket change).sink = executor.sink := by
  unfold supervise
  cases executor.run? ticket with
  | none => rfl
  | some run =>
      cases process : run.supervision with
      | none => simp [process]
      | some before => simp [process, sink_keep, silent]

theorem sink_elapse (executor : Executor) (now : Time) :
    (executor.elapse now).sink = executor.sink := by
  unfold elapse
  generalize executor.runs.map Prod.fst = tickets
  induction tickets generalizing executor with
  | nil => rfl
  | cons ticket tickets ih =>
      exact (ih _).trans (sink_supervise fun supervision => Supervision.sink_expire supervision _)

/-! ## A run and its process -/

/-- The process of a run was started, and the run has ended exactly if the supervision is over. -/
structure Supervises (executor : Executor) (ticket : Ticket) (supervision : Supervision)
    (run : Run) : Prop where
  known : executor.run? ticket = some run
  process : run.supervision = some supervision
  stage : run.stage = (supervision.outcome?).elim .active .ended

namespace Supervises

variable {supervision : Supervision}

theorem told (supervises : executor.Supervises ticket supervision run) : run.stage ≠ .waiting := by
  rw [supervises.stage]
  cases supervision.outcome? <;> nofun

theorem outcome? (supervises : executor.Supervises ticket supervision run) :
    executor.outcome? ticket = supervision.outcome? := by
  have stage := supervises.stage
  unfold Executor.outcome?
  rw [supervises.known]
  cases finished : supervision.outcome? with
  | none =>
      rw [finished] at stage
      cases run
      simp_all
  | some outcome =>
      rw [finished] at stage
      cases run
      simp_all

theorem of_keep (known : executor.run? ticket = some run)
    (stage : run.stage = .active ∨ ∃ outcome, run.stage = .ended outcome ∧
      supervision.outcome? = some outcome) :
    ∃ later, (executor.keep ticket run supervision).Supervises ticket supervision later := by
  rcases stage with active | ⟨outcome, ended, finished⟩
  · cases finished : supervision.outcome? with
    | none =>
        refine ⟨{ run with supervision := some supervision }, ?_, rfl, ?_⟩
        · simp [keep, active, finished, run?_setRun_self known]
        · simp [active, finished]
    | some outcome =>
        refine ⟨{ run with supervision := some supervision, stage := .ended outcome }, ?_, rfl, ?_⟩
        · simp only [keep, active, finished]
          exact run?_finish_self known outcome
        · simp [finished]
  · refine ⟨{ run with supervision := some supervision }, ?_, rfl, ?_⟩
    · simp [keep, ended, run?_setRun_self known]
    · simp [ended, finished]

/-- An end that has been drawn stays. -/
theorem supervise (supervises : executor.Supervises ticket supervision run)
    {change : Supervision → Supervision}
    (stays : ∀ outcome, supervision.outcome? = some outcome →
      (change supervision).outcome? = some outcome) :
    ∃ later, (executor.supervise ticket change).Supervises ticket (change supervision) later := by
  simp only [Executor.supervise, supervises.known, supervises.process]
  refine of_keep ?_ ?_
  · exact supervises.known
  · rw [supervises.stage]
    cases finished : supervision.outcome? with
    | none => exact .inl rfl
    | some outcome => exact .inr ⟨outcome, rfl, stays outcome finished⟩

theorem supervise_of_ne (supervises : executor.Supervises ticket supervision run)
    (different : ticket ≠ other) (change : Supervision → Supervision) :
    (executor.supervise other change).Supervises ticket supervision run where
  known := run?_supervise_of_ne different supervises.known supervises.told change
  process := supervises.process
  stage := supervises.stage

/-- Of what time leaves as it is, nothing is lost while time passes for every run. -/
theorem elapse (supervises : executor.Supervises ticket supervision run) {now : Time}
    (holds : Supervision → Prop) (keeps : ∀ later, holds later → holds (later.elapse now))
    (once : holds (supervision.elapse now)) :
    ∃ later run, (executor.elapse now).Supervises ticket later run ∧ holds later := by
  have stays (later : Supervision) (outcome : Outcome) (finished : later.outcome? = some outcome) :
      (later.elapse now).outcome? = some outcome := by
    rw [Supervision.outcome?_eq_some_iff] at finished ⊢
    exact Supervision.phase_expire_of_over finished _
  have member : ticket ∈ executor.runs.map Prod.fst :=
    Claims.mem_names_of_get? supervises.known
  -- The ticket is still to come, or time has passed for its run before.
  have pending : holds supervision ∨
      ticket ∈ executor.runs.map Prod.fst ∧ holds (supervision.elapse now) := .inr ⟨member, once⟩
  unfold Executor.elapse
  generalize executor.runs.map Prod.fst = tickets at pending
  clear member once
  induction tickets generalizing executor supervision run with
  | nil =>
      refine ⟨supervision, run, supervises, pending.resolve_right ?_⟩
      intro coming
      exact List.not_mem_nil coming.1
  | cons first tickets ih =>
      by_cases own : ticket = first
      · subst own
        obtain ⟨later, supervised⟩ := supervises.supervise (stays supervision)
        refine ih supervised (.inl ?_)
        rcases pending with before | ⟨_, once⟩
        · exact keeps supervision before
        · exact once
      · refine ih (supervises.supervise_of_ne own _) (pending.imp_right fun ⟨member, once⟩ => ?_)
        exact ⟨(List.mem_cons.mp member).resolve_left own, once⟩

theorem observe_all (supervises : executor.Supervises ticket supervision run)
    (timeline : List (Time × ProcessEvent)) :
    ∃ later, (timeline.foldl (fun executor item => executor.observe ticket item.1 item.2)
      executor).Supervises ticket (supervision.through timeline) later := by
  induction timeline generalizing executor supervision run with
  | nil => exact ⟨run, supervises⟩
  | cons item timeline ih =>
      have stays (outcome : Outcome) (finished : supervision.outcome? = some outcome) :
          (supervision.observe item.1 item.2).outcome? = some outcome := by
        rw [Supervision.outcome?_eq_some_iff] at finished ⊢
        exact Supervision.phase_through_of_over finished [item]
      obtain ⟨later, supervised⟩ := supervises.supervise stays
      exact ih supervised

end Supervises

/-! ## A run that is not started -/

/-- A run that has ended without a process does not change while time passes. -/
theorem run?_elapse_of_idle (known : executor.run? ticket = some run)
    (idle : run.supervision = none) (told : run.stage ≠ .waiting) (now : Time) :
    (executor.elapse now).run? ticket = some run := by
  unfold elapse
  generalize executor.runs.map Prod.fst = tickets
  induction tickets generalizing executor with
  | nil => exact known
  | cons first tickets ih =>
      by_cases own : ticket = first
      · subst own
        rw [List.foldl_cons, supervise_of_idle known idle]
        exact ih known
      · exact ih (run?_supervise_of_ne own known told _)

theorem observe_all_of_idle (known : executor.run? ticket = some run)
    (idle : run.supervision = none) (timeline : List (Time × ProcessEvent)) :
    timeline.foldl (fun executor item => executor.observe ticket item.1 item.2) executor =
      executor := by
  induction timeline with
  | nil => rfl
  | cons item timeline ih =>
      rw [List.foldl_cons, observe, supervise_of_idle known idle, ih]

end Turnstile.Executor
