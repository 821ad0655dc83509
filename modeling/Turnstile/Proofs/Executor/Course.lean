import Turnstile.Proofs.Executor.Process

/-!
# The course of a run

A run that was let in is started, its process does what it does, and time passes.
The outcome of the run is decided by what the process had done by its deadline,
and a run that is not started leaves the sink alone.  A deadline that no clock can tell
is the end of a run before its process is started.
-/

namespace Turnstile

/-- What the system and a process do in answer to a run that is started. -/
structure Course where
  /-- When the run is started. -/
  now : Time
  /-- What paths point at. -/
  probe : String → PathKind
  spawned : Except String Answers
  timeline : List (Time × ProcessEvent)
  /-- The instant up to which the run is followed. -/
  horizon : Time

/-- Neither reading nor waiting fails, and time goes forward. -/
structure Course.Sound (course : Course) : Prop where
  sound : ∀ item ∈ course.timeline, item.2.Sound
  sorted : course.timeline.Pairwise fun earlier later => earlier.1 ≤ later.1

/-- The process has exited, and a deadline has passed. -/
structure Course.Complete (course : Course) (deadline : Time) : Prop where
  exits : Supervision.exit? (course.timeline.map Prod.snd) ≠ none
  past_due : deadline ≤ course.horizon

namespace Executor

/-- The run is started, its process does what it does, and time passes. -/
def follow (executor : Executor) (ticket : Ticket) (course : Course) : Executor :=
  (course.timeline.foldl (fun executor item => executor.observe ticket item.1 item.2)
    (executor.launch ticket course.now course.probe course.spawned)).elapse course.horizon

/-- A run that was let in with a request, and whose process has not been started. -/
structure LetIn (executor : Executor) (ticket : Ticket) (run : Run) (request : Request) : Prop where
  known : executor.run? ticket = some run
  stage : run.stage = .admitted request
  idle : run.supervision = none

def deadlineOf (executor : Executor) (run : Run) (course : Course) : Time :=
  course.now + executor.limitOf run

/-- The command line is not refused, its run has a deadline, and the system starts it. -/
structure Starts (executor : Executor) (run : Run) (request : Request) (course : Course) :
    Prop where
  accepted : executor.runner.check course.probe request.argv = .ok ()
  timed : (executor.deadlineOf run course).IsInstant
  spawned : ∃ answers, course.spawned = .ok answers

/-- What comes of the attempt to start the run. -/
def attempt (executor : Executor) (run : Run) (request : Request) (course : Course) :
    Except Failure Supervision :=
  executor.runner.start course.now (executor.limitOf run) request.argv
    (executor.runner.check course.probe request.argv) course.spawned

/-- The supervision of the run at its start. -/
def started (executor : Executor) (run : Run) (request : Request) (course : Course)
    (answers : Answers) : Supervision :=
  executor.runner.supervise (request.argv.headD "") course.now (executor.limitOf run) answers

/-- By the deadline the process has exited with a status, and both its pipes have ended. -/
def InTime (executor : Executor) (run : Run) (course : Course) (status : ExitStatus) : Prop :=
  Supervision.Done
    ((Supervision.upTo (executor.deadlineOf run course) course.timeline).map Prod.snd) status

variable {executor : Executor} {ticket : Ticket} {run : Run} {request : Request} {course : Course}

/-- A code that stands for success: 0, and 3 if the tool repairs documents. -/
def Succeeds (program : String) (code : Int) : Prop :=
  code = 0 ∨ code = 3 ∧ Command.executableName program = "qpdf"

theorem classify_of_succeeds {program : String} {code : Int} (succeeds : Succeeds program code)
    (messages : String) : Supervision.classify program code messages = .ok ⟨code, messages⟩ := by
  refine if_pos (succeeds.imp_right fun warns => ?_)
  simp [Supervision.isWarningExit, Supervision.repairWarningCode, Supervision.repairTool, warns]

theorem classify_of_not_succeeds {program : String} {code : Int}
    (fails : ¬ Succeeds program code) (messages : String) :
    Supervision.classify program code messages = .error (.exited program code messages) := by
  refine if_neg fun succeeds => fails (succeeds.imp_right fun warns => ?_)
  simpa [Supervision.isWarningExit, Supervision.repairWarningCode, Supervision.repairTool] using
    warns

/-! ## The attempt to start -/

theorem attempt_of_refused {refusal : Refusal}
    (refused : executor.runner.check course.probe request.argv = .error refusal) :
    executor.attempt run request course = .error (.refused refusal) := by
  rw [attempt, refused]
  rfl

theorem attempt_of_late (accepted : executor.runner.check course.probe request.argv = .ok ())
    (late : ¬ (executor.deadlineOf run course).IsInstant) :
    executor.attempt run request course = .error .overflow := by
  rw [attempt, accepted]
  exact if_neg late

theorem attempt_of_unspawned {cause : String}
    (accepted : executor.runner.check course.probe request.argv = .ok ())
    (timed : (executor.deadlineOf run course).IsInstant)
    (unspawned : course.spawned = .error cause) :
    executor.attempt run request course =
      .error (.spawn (request.argv.headD "") cause) := by
  rw [attempt, accepted, unspawned]
  exact if_pos timed

theorem Starts.attempt_eq (starts : executor.Starts run request course) {answers : Answers}
    (spawned : course.spawned = .ok answers) :
    executor.attempt run request course = .ok (executor.started run request course answers) := by
  rw [attempt, starts.accepted, spawned]
  exact if_pos starts.timed

theorem Starts.attempt_ne (starts : executor.Starts run request course) (failure : Failure) :
    executor.attempt run request course ≠ .error failure := by
  obtain ⟨answers, spawned⟩ := starts.spawned
  rw [starts.attempt_eq spawned]
  nofun

theorem exists_failure_of_not_starts (unstarted : ¬ executor.Starts run request course) :
    ∃ failure, executor.attempt run request course = .error failure := by
  cases accepted : executor.runner.check course.probe request.argv with
  | error refusal => exact ⟨_, attempt_of_refused accepted⟩
  | ok =>
      by_cases timed : (executor.deadlineOf run course).IsInstant
      · cases spawned : course.spawned with
        | error cause => exact ⟨_, attempt_of_unspawned accepted timed spawned⟩
        | ok answers => exact absurd ⟨accepted, timed, answers, spawned⟩ unstarted
      · exact ⟨_, attempt_of_late accepted timed⟩

/-! ## How a run stands -/

/-- How a run can stand. -/
inductive Stands (executor : Executor) (run : Run) (request : Request) (course : Course) :
    Option Outcome → Prop where
  | refused {refusal : Refusal}
      (refused : executor.runner.check course.probe request.argv = .error refusal) :
      Stands executor run request course (some (.error (.refused refusal)))
  | overflowed (accepted : executor.runner.check course.probe request.argv = .ok ())
      (late : ¬ (executor.deadlineOf run course).IsInstant) :
      Stands executor run request course (some (.error .overflow))
  | unspawned {cause : String}
      (accepted : executor.runner.check course.probe request.argv = .ok ())
      (timed : (executor.deadlineOf run course).IsInstant)
      (failed : course.spawned = .error cause) :
      Stands executor run request course (some (.error (.spawn (request.argv.headD "") cause)))
  | completed {status : ExitStatus} {messages : String}
      (starts : executor.Starts run request course)
      (inTime : executor.InTime run course status)
      (succeeds : Succeeds (request.argv.headD "") status.code) :
      Stands executor run request course (some (.ok ⟨status.code, messages⟩))
  | exited {status : ExitStatus} {messages : String} (starts : executor.Starts run request course)
      (inTime : executor.InTime run course status)
      (fails : ¬ Succeeds (request.argv.headD "") status.code) :
      Stands executor run request course
        (some (.error (.exited (request.argv.headD "") status.code messages)))
  | overdue {messages : String} (starts : executor.Starts run request course)
      (undone : ∀ status, ¬ executor.InTime run course status) :
      Stands executor run request course
        (some (.error (.timeout (request.argv.headD "") (executor.limitOf run) messages)))
  | goesOn (starts : executor.Starts run request course)
      (undone : ∀ status, ¬ executor.InTime run course status)
      (incomplete : ¬ course.Complete (executor.deadlineOf run course)) :
      Stands executor run request course none

namespace LetIn

/-- A run that is not started ends with the reason, and the sink is left alone. -/
theorem follow_of_failed (letIn : executor.LetIn ticket run request) (failure : Failure)
    (failed : executor.attempt run request course = .error failure) :
    (executor.follow ticket course).run? ticket =
        some { run with stage := .ended (.error failure) } ∧
      (executor.follow ticket course).sink = executor.sink := by
  let logged := { executor with
    log := executor.log ++ Runner.attemptLog (executor.runner.check course.probe request.argv) }
  have launched : executor.launch ticket course.now course.probe course.spawned =
      logged.finish ticket run (.error failure) := by
    rw [attempt] at failed
    simp only [launch, letIn.known, letIn.stage, failed]
    rfl
  have known : logged.run? ticket = some run := letIn.known
  have ended : (logged.finish ticket run (.error failure)).run? ticket =
      some { run with stage := .ended (.error failure) } := run?_finish_self known _
  rw [follow, launched, observe_all_of_idle ended letIn.idle]
  refine ⟨run?_elapse_of_idle ended letIn.idle nofun _, ?_⟩
  rw [sink_elapse, sink_finish]

/-- A run that is started goes on as its supervision does. -/
theorem follow_of_started (letIn : executor.LetIn ticket run request)
    (starts : executor.Starts run request course) {answers : Answers}
    (spawned : course.spawned = .ok answers) (holds : Supervision → Prop)
    (keeps : ∀ later, holds later → holds (later.elapse course.horizon))
    (once : holds (((executor.started run request course answers).through course.timeline).elapse
      course.horizon)) :
    ∃ later, later.terms = (executor.started run request course answers).terms ∧ holds later ∧
      (executor.follow ticket course).outcome? ticket = later.outcome? := by
  let logged := { executor with log := executor.log ++ Runner.attemptLog (.ok ()) }
  have known : logged.run? ticket = some run := letIn.known
  let start := executor.started run request course answers
  let active := { run with stage := .active, supervision := some start }
  have launched : executor.launch ticket course.now course.probe course.spawned =
      logged.setRun ticket active := by
    have attempted := starts.attempt_eq spawned
    rw [attempt, starts.accepted] at attempted
    simp only [launch, letIn.known, letIn.stage, starts.accepted, attempted]
    rfl
  have supervises : (logged.setRun ticket active).Supervises ticket start active :=
    ⟨run?_setRun_self known, rfl, rfl⟩
  obtain ⟨_, supervised⟩ := supervises.observe_all course.timeline
  have same : ((start.through course.timeline).elapse course.horizon).terms = start.terms :=
    (Supervision.terms_expire _ _).trans (Supervision.terms_through _)
  obtain ⟨later, _, supervised, terms, kept⟩ := supervised.elapse
    (fun later => later.terms = start.terms ∧ holds later)
    (fun later ⟨terms, kept⟩ => ⟨(Supervision.terms_expire later _).trans terms, keeps later kept⟩)
    ⟨same, once⟩
  refine ⟨later, terms, kept, ?_⟩
  rw [follow, launched]
  exact supervised.outcome?

theorem stands_of_started (letIn : executor.LetIn ticket run request)
    (starts : executor.Starts run request course) (sound : course.Sound) :
    executor.Stands run request course ((executor.follow ticket course).outcome? ticket) := by
  obtain ⟨answers, spawned⟩ := starts.spawned
  have works : (executor.started run request course answers).AtWork [] :=
    Runner.atWork_supervise _ _ _ _ _
  have rests : (executor.started run request course answers).Rests :=
    Runner.rests_supervise _ _ _ _ _
  by_cases done : ∃ status, executor.InTime run course status
  · obtain ⟨status, inTime⟩ := done
    obtain ⟨later, terms, ⟨messages, finished⟩, outcome⟩ := letIn.follow_of_started starts spawned
      (Supervision.IsClassified status) (fun _ classified => classified.expire _)
      (works.isClassified_elapse_through rests sound.sound sound.sorted inTime course.horizon)
    rw [outcome, Supervision.outcome?_eq_some_iff.mpr finished, terms]
    change executor.Stands run request course
      (some (Supervision.classify (request.argv.headD "") status.code messages))
    by_cases succeeds : Succeeds (request.argv.headD "") status.code
    · rw [classify_of_succeeds succeeds]
      exact .completed starts inTime succeeds
    · rw [classify_of_not_succeeds succeeds]
      exact .exited starts inTime succeeds
  · have undone := not_exists.mp done
    obtain ⟨later, terms, undecided, outcome⟩ := letIn.follow_of_started starts spawned
      (Supervision.Undecided _ _ course.horizon) (fun _ undecided => undecided.elapse)
      (works.undecided_elapse_through rests sound.sound sound.sorted undone course.horizon)
    have overdue : later.IsOverdue → executor.Stands run request course later.outcome? := by
      rintro ⟨messages, finished⟩
      rw [Supervision.outcome?_eq_some_iff.mpr finished, terms]
      exact .overdue starts undone
    rw [outcome]
    rcases undecided.outcome? undone with none | timeout
    · rw [none]
      refine .goesOn starts undone ?_
      intro complete
      have deadline : later.deadline = executor.deadlineOf run course :=
        congrArg Supervision.Terms.deadline terms
      obtain ⟨messages, finished⟩ := undecided.isOverdue complete.exits
        (deadline ▸ complete.past_due)
      rw [Supervision.outcome?_eq_some_iff.mpr finished] at none
      cases none
    · exact overdue timeout

/-- Every run that was let in stands in one of seven ways. -/
theorem stands (letIn : executor.LetIn ticket run request) (sound : course.Sound) :
    executor.Stands run request course ((executor.follow ticket course).outcome? ticket) := by
  cases accepted : executor.runner.check course.probe request.argv with
  | error refusal =>
      have ended := (letIn.follow_of_failed _ (attempt_of_refused accepted)).1
      rw [outcome?, ended]
      exact .refused accepted
  | ok =>
      by_cases timed : (executor.deadlineOf run course).IsInstant
      · cases spawned : course.spawned with
        | error cause =>
            have ended :=
              (letIn.follow_of_failed _ (attempt_of_unspawned accepted timed spawned)).1
            rw [outcome?, ended]
            exact .unspawned accepted timed spawned
        | ok answers => exact letIn.stands_of_started ⟨accepted, timed, answers, spawned⟩ sound
      · have ended := (letIn.follow_of_failed _ (attempt_of_late accepted timed)).1
        rw [outcome?, ended]
        exact .overflowed accepted timed

end LetIn

/-! ## The outcome -/

/-- The outcome of a run that was let in, at any instant of any course. -/
structure Classified (executor : Executor) (run : Run) (request : Request) (course : Course)
    (outcome? : Option Outcome) : Prop where
  /-- Success is reported if the process was done in time and its code stands for success. -/
  completed : ∀ code, (∃ messages, outcome? = some (.ok ⟨code, messages⟩)) ↔
    executor.Starts run request course ∧ ∃ status, executor.InTime run course status ∧
      status.code = code ∧ Succeeds (request.argv.headD "") code
  /-- Failure is reported if the process was done in time and its code stands for anything else. -/
  exited : ∀ program code, (∃ messages, outcome? = some (.error (.exited program code messages))) ↔
    program = request.argv.headD "" ∧ executor.Starts run request course ∧
      ∃ status, executor.InTime run course status ∧ status.code = code ∧ ¬ Succeeds program code
  /-- A time that was up is reported only if the process was not done in time. -/
  overdue : ∀ program limit messages,
    outcome? = some (.error (.timeout program limit messages)) →
      program = request.argv.headD "" ∧ limit = executor.limitOf run ∧
        executor.Starts run request course ∧ ∀ status, ¬ executor.InTime run course status
  /-- It is reported once the deadline has passed and the process has exited. -/
  expires : executor.Starts run request course → (∀ status, ¬ executor.InTime run course status) →
    course.Complete (executor.deadlineOf run course) →
      ∃ messages, outcome? =
        some (.error (.timeout (request.argv.headD "") (executor.limitOf run) messages))
  /-- By then every run has ended. -/
  ends : course.Complete (executor.deadlineOf run course) → outcome? ≠ none
  refused : ∀ refusal, outcome? = some (.error (.refused refusal)) ↔
    executor.runner.check course.probe request.argv = .error refusal
  /-- No deadline can be told that is past the last instant, and then nothing is started. -/
  overflowed : outcome? = some (.error .overflow) ↔
    executor.runner.check course.probe request.argv = .ok () ∧
      ¬ (executor.deadlineOf run course).IsInstant
  unspawned : ∀ program cause, outcome? = some (.error (.spawn program cause)) ↔
    program = request.argv.headD "" ∧
      executor.runner.check course.probe request.argv = .ok () ∧
        (executor.deadlineOf run course).IsInstant ∧ course.spawned = .error cause

theorem InTime.unique {status other : ExitStatus} (one : executor.InTime run course status)
    (two : executor.InTime run course other) : status = other :=
  Option.some.inj (one.exited.symm.trans two.exited)

namespace Stands

variable {outcome? : Option Outcome}

/-- A run that is not started stands at what its start has failed for. -/
theorem of_attempt (stands : executor.Stands run request course outcome?) {failure : Failure}
    (failed : executor.attempt run request course = .error failure) :
    outcome? = some (.error failure) := by
  cases stands with
  | refused refused =>
      rw [attempt_of_refused refused] at failed
      cases failed
      rfl
  | overflowed accepted late =>
      rw [attempt_of_late accepted late] at failed
      cases failed
      rfl
  | unspawned accepted timed unspawned =>
      rw [attempt_of_unspawned accepted timed unspawned] at failed
      cases failed
      rfl
  | completed starts => exact absurd failed (starts.attempt_ne _)
  | exited starts => exact absurd failed (starts.attempt_ne _)
  | overdue starts => exact absurd failed (starts.attempt_ne _)
  | goesOn starts => exact absurd failed (starts.attempt_ne _)

/-- A run that is started has the code of its process judged, or its time runs out. -/
theorem of_starts (stands : executor.Stands run request course outcome?)
    (starts : executor.Starts run request course) :
    (∃ status messages, executor.InTime run course status ∧
        outcome? = some (Supervision.classify (request.argv.headD "") status.code messages)) ∨
      (∀ status, ¬ executor.InTime run course status) ∧
        ((∃ messages, outcome? =
            some (.error (.timeout (request.argv.headD "") (executor.limitOf run) messages))) ∨
          ¬ course.Complete (executor.deadlineOf run course)) := by
  cases stands with
  | refused refused => exact absurd (attempt_of_refused refused) (starts.attempt_ne _)
  | overflowed accepted late => exact absurd starts.timed late
  | unspawned accepted timed unspawned =>
      exact absurd (attempt_of_unspawned accepted timed unspawned) (starts.attempt_ne _)
  | @completed status messages _ inTime succeeds =>
      exact .inl ⟨status, messages, inTime, by rw [classify_of_succeeds succeeds]⟩
  | @exited status messages _ inTime fails =>
      exact .inl ⟨status, messages, inTime, by rw [classify_of_not_succeeds fails]⟩
  | @overdue messages _ undone => exact .inr ⟨undone, .inl ⟨messages, rfl⟩⟩
  | goesOn _ undone incomplete => exact .inr ⟨undone, .inr incomplete⟩

/-- A process that was done in time has its code judged. -/
theorem of_inTime (stands : executor.Stands run request course outcome?)
    (starts : executor.Starts run request course) {status : ExitStatus}
    (inTime : executor.InTime run course status) :
    ∃ messages, outcome? =
      some (Supervision.classify (request.argv.headD "") status.code messages) := by
  rcases stands.of_starts starts with ⟨other, messages, known, judged⟩ | ⟨undone, _⟩
  · cases inTime.unique known
    exact ⟨messages, judged⟩
  · exact absurd inTime (undone status)

theorem of_undone (stands : executor.Stands run request course outcome?)
    (starts : executor.Starts run request course)
    (undone : ∀ status, ¬ executor.InTime run course status)
    (complete : course.Complete (executor.deadlineOf run course)) :
    ∃ messages, outcome? =
      some (.error (.timeout (request.argv.headD "") (executor.limitOf run) messages)) := by
  rcases stands.of_starts starts with ⟨status, _, inTime, _⟩ | ⟨_, timeout | incomplete⟩
  · exact absurd inTime (undone status)
  · exact timeout
  · exact absurd complete incomplete

theorem classified (stands : executor.Stands run request course outcome?) :
    executor.Classified run request course outcome? := by
  constructor
  case completed =>
    intro code
    constructor
    · rintro ⟨messages, reported⟩
      cases stands with
      | completed starts inTime succeeds =>
          cases reported
          exact ⟨starts, _, inTime, rfl, succeeds⟩
      | _ => cases reported
    · rintro ⟨starts, status, inTime, rfl, succeeds⟩
      obtain ⟨messages, reported⟩ := stands.of_inTime starts inTime
      exact ⟨messages, by rw [reported, classify_of_succeeds succeeds]⟩
  case exited =>
    intro program code
    constructor
    · rintro ⟨messages, reported⟩
      cases stands with
      | exited starts inTime fails =>
          cases reported
          exact ⟨rfl, starts, _, inTime, rfl, fails⟩
      | _ => cases reported
    · rintro ⟨rfl, starts, status, inTime, rfl, fails⟩
      obtain ⟨messages, reported⟩ := stands.of_inTime starts inTime
      exact ⟨messages, by rw [reported, classify_of_not_succeeds fails]⟩
  case overdue =>
    intro program limit messages reported
    cases stands with
    | overdue starts undone =>
        cases reported
        exact ⟨rfl, rfl, starts, undone⟩
    | _ => cases reported
  case expires => exact stands.of_undone
  case ends =>
    intro complete
    cases stands with
    | goesOn _ _ incomplete => exact absurd complete incomplete
    | _ => simp
  case refused =>
    intro refusal
    constructor
    · intro reported
      cases stands with
      | refused refused =>
          cases reported
          exact refused
      | _ => cases reported
    · exact fun refused => stands.of_attempt (attempt_of_refused refused)
  case overflowed =>
    constructor
    · intro reported
      cases stands with
      | overflowed accepted late => exact ⟨accepted, late⟩
      | _ => cases reported
    · rintro ⟨accepted, late⟩
      exact stands.of_attempt (attempt_of_late accepted late)
  case unspawned =>
    intro program cause
    constructor
    · intro reported
      cases stands with
      | unspawned accepted timed failed =>
          cases reported
          exact ⟨rfl, accepted, timed, failed⟩
      | _ => cases reported
    · rintro ⟨rfl, accepted, timed, failed⟩
      exact stands.of_attempt (attempt_of_unspawned accepted timed failed)

end Stands

theorem InTime.bothClosed {status : ExitStatus} (inTime : executor.InTime run course status) :
    Supervision.BothClosed (course.timeline.map Prod.snd) := by
  intro channel
  obtain ⟨item, member, same⟩ := List.mem_map.mp (inTime.closed channel)
  exact List.mem_map.mpr ⟨item, (List.mem_filter.mp member).1, same⟩

/--
Whatever a process does, its run ends as it should, unless its deadline is past the last
instant of a clock; a run that was not started has no drains and gives nothing to the sink;
and no code is reported while a pipe is open.
-/
theorem follow_classified (letIn : executor.LetIn ticket run request) (sound : course.Sound) :
    executor.Classified run request course ((executor.follow ticket course).outcome? ticket) ∧
      (¬ executor.Starts run request course →
        ((executor.follow ticket course).run? ticket).bind Run.supervision = none ∧
          (executor.follow ticket course).sink = executor.sink) ∧
      ∀ program code messages,
        (executor.follow ticket course).outcome? ticket = some (.ok ⟨code, messages⟩) ∨
          (executor.follow ticket course).outcome? ticket =
            some (.error (.exited program code messages)) →
        Supervision.BothClosed (course.timeline.map Prod.snd) := by
  have classified := (letIn.stands sound).classified
  refine ⟨classified, fun unstarted => ?_, fun program code messages reported => ?_⟩
  · obtain ⟨failure, failed⟩ := exists_failure_of_not_starts unstarted
    obtain ⟨ended, sink⟩ := letIn.follow_of_failed failure failed
    rw [ended]
    exact ⟨letIn.idle, sink⟩
  · rcases reported with reported | reported
    · obtain ⟨_, _, inTime, _⟩ := (classified.completed code).mp ⟨messages, reported⟩
      exact inTime.bothClosed
    · obtain ⟨_, _, _, inTime, _⟩ := (classified.exited program code).mp ⟨messages, reported⟩
      exact inTime.bothClosed

/-- An executor that has let in a run of the repair tool. -/
def repairExecutor : Executor :=
  (({ endpoints := some [] } : Setup).build.begin .qpdf ⟨["qpdf"], none⟩).2

/-- One pipe ends before the tool exits with warnings, and the other one after it. -/
def repairCourse : Course where
  now := 0
  probe _ := .missing
  spawned := .ok {}
  timeline := [(1, .closed .out), (2, .exited (.exited 3)), (5, .closed .err)]
  horizon := 5

def repairRun : Run where
  category := .qpdf
  request := ⟨["qpdf"], none⟩
  pooled := false
  stage := .admitted ⟨["qpdf"], none⟩

theorem sound_repairCourse : repairCourse.Sound := by
  constructor
  · simp [repairCourse, ProcessEvent.Sound]
  · simp [repairCourse]

/-- The tool is done at 5. -/
theorem inTime_repairCourse {executor : Executor}
    (long : 5 ≤ executor.deadlineOf repairRun repairCourse) :
    executor.InTime repairRun repairCourse (.exited 3) := by
  have early : ∀ item ∈ repairCourse.timeline, item.1 ≤ 5 := by decide
  have whole : Supervision.upTo (executor.deadlineOf repairRun repairCourse)
      repairCourse.timeline = repairCourse.timeline :=
    List.filter_eq_self.mpr fun item member =>
      decide_eq_true (Nat.le_trans (early item member) long)
  rw [InTime, whole]
  constructor
  · rfl
  · intro channel
    cases channel
    · exact List.mem_cons_self
    · exact List.mem_cons_of_mem _ (List.mem_cons_of_mem _ List.mem_cons_self)

/-- The tool is waited for, and its warnings are taken for success. -/
theorem follow_classified_repair :
    repairExecutor.LetIn 0 repairRun ⟨["qpdf"], none⟩ ∧ repairCourse.Sound ∧
      ∃ messages,
        (repairExecutor.follow 0 repairCourse).outcome? 0 = some (.ok ⟨3, messages⟩) := by
  have letIn : repairExecutor.LetIn 0 repairRun ⟨["qpdf"], none⟩ := ⟨rfl, rfl, rfl⟩
  have starts : repairExecutor.Starts repairRun ⟨["qpdf"], none⟩ repairCourse :=
    ⟨rfl, by decide, _, rfl⟩
  refine ⟨letIn, sound_repairCourse,
    ((follow_classified letIn sound_repairCourse).1.completed 3).mpr ?_⟩
  exact ⟨starts, .exited 3, inTime_repairCourse (by decide), rfl, .inr ⟨rfl, rfl⟩⟩

/-- An executor like that whose settings give the tool more minutes than a clock can tell. -/
def endlessExecutor : Executor :=
  (({ settings := { timeoutMinutes := CategoryTable.empty.insert .qpdf 9223372036854775807 }
      endpoints := some [] } : Setup).build.begin .qpdf ⟨["qpdf"], none⟩).2

/-- The tool that is waited for above is not even started there, and nothing is returned. -/
theorem follow_overflowed :
    endlessExecutor.LetIn 0 repairRun ⟨["qpdf"], none⟩ ∧ repairCourse.Sound ∧
      endlessExecutor.runner.check repairCourse.probe ["qpdf"] = .ok () ∧
      repairCourse.spawned = .ok {} ∧
      endlessExecutor.InTime repairRun repairCourse (.exited 3) ∧ Succeeds "qpdf" 3 ∧
      (endlessExecutor.follow 0 repairCourse).outcome? 0 = some (.error .overflow) :=
  ⟨⟨rfl, rfl, rfl⟩, sound_repairCourse, rfl, rfl, inTime_repairCourse (by decide),
    .inr ⟨rfl, rfl⟩, rfl⟩

end Executor

end Turnstile
