import Turnstile.Proofs.Endpoint.Checking
import Turnstile.Proofs.Executor.Progress

/-!
# Refusals of runs

A run is refused when it is started, and for what the check says of the command that
would be started.  Afterwards no run is refused any more: its supervision ends it with
what became of its process.
-/

namespace Turnstile

/-- A failure that only a run with a process has. -/
def Failure.isOfProcess : Failure → Bool
  | .timeout _ _ _ => true
  | .exited _ _ _ => true
  | .io _ => true
  | _ => false

namespace Supervision

/-- If the supervision is over without a completion, the reason is a failure of the process. -/
def BlamesProcess (supervision : Supervision) : Prop :=
  ∀ failure, supervision.phase = .over (.error failure) → failure.isOfProcess = true

variable {supervision later : Supervision}

theorem BlamesProcess.of_phase (blames : supervision.BlamesProcess)
    (phase : later.phase = supervision.phase) : later.BlamesProcess := by
  intro failure finished
  exact blames failure (phase ▸ finished)

theorem BlamesProcess.conclude (blames : supervision.BlamesProcess) :
    supervision.conclude.BlamesProcess := by
  unfold Supervision.conclude
  split
  · split
    · intro failure finished
      simp only [Phase.over.injEq, classify] at finished
      split at finished
      · cases finished
      · cases finished
        rfl
    · exact blames
  · exact blames

theorem blamesProcess_cutOff (supervision : Supervision) : supervision.cutOff.BlamesProcess := by
  intro failure finished
  cases finished
  rfl

theorem blamesProcess_pursue (supervision : Supervision) (signals : List Signal)
    (shutdown : Shutdown) : (supervision.pursue signals shutdown).BlamesProcess := by
  unfold pursue
  split
  · exact (blamesProcess_cutOff supervision).of_phase rfl
  · nofun

theorem BlamesProcess.settle (blames : supervision.BlamesProcess) :
    supervision.settle.BlamesProcess :=
  settle_keeps BlamesProcess
    (fun later channel kept => (kept.of_phase (phase_drainStep later channel)).conclude) blames

theorem BlamesProcess.expire (blames : supervision.BlamesProcess) (now : Time) :
    (supervision.expire now).BlamesProcess := by
  have deadline : supervision.expireDeadline.BlamesProcess := by
    unfold expireDeadline
    split
    · exact blamesProcess_pursue _ _ _
    · exact blamesProcess_cutOff _
    · exact blames
  have grace {before : Supervision} (blames : before.BlamesProcess) :
      (before.expireGrace now).BlamesProcess := by
    unfold expireGrace
    split
    · exact blamesProcess_pursue _ _ _
    · exact blames
  unfold Supervision.expire
  split
  · exact grace deadline
  · exact grace blames

theorem BlamesProcess.apply (blames : supervision.BlamesProcess) (event : ProcessEvent) :
    (supervision.apply event).BlamesProcess := by
  cases event with
  | wrote channel bytes => exact blames.of_phase (phase_setDrain _ _ _)
  | closed channel => exact blames.of_phase (phase_setDrain _ _ _)
  | drained channel => exact blames.of_phase (phase_drainStep _ _)
  | lost channel => exact blames.of_phase (phase_setDrain _ _ _)
  | exited status =>
      change (supervision.exit status).BlamesProcess
      unfold exit
      split
      · nofun
      · unfold follow
        split
        · exact blamesProcess_cutOff _
        · nofun
      · exact blames
  | waitFailed cause =>
      change (supervision.failWait cause).BlamesProcess
      unfold failWait
      split
      · intro failure finished
        cases finished
        rfl
      · exact (blamesProcess_cutOff supervision).of_phase rfl
      · exact blames

theorem BlamesProcess.observe (blames : supervision.BlamesProcess) (now : Time)
    (event : ProcessEvent) : (supervision.observe now event).BlamesProcess :=
  (((blames.expire now).apply event).conclude).settle

theorem BlamesProcess.elapse (blames : supervision.BlamesProcess) (now : Time) :
    (supervision.elapse now).BlamesProcess :=
  blames.expire (now + 1)

theorem BlamesProcess.abandon (blames : supervision.BlamesProcess) :
    supervision.abandon.BlamesProcess := by
  unfold Supervision.abandon
  split
  · exact blames
  · exact blames
  · nofun
  · nofun

end Supervision

namespace Run

/-- The run has been tried and was not refused, nor will be. -/
structure Unrefused (run : Run) : Prop where
  tried : ∀ {request}, run.stage ≠ .admitted request
  ended : ∀ {refusal}, run.stage ≠ .ended (.error (.refused refusal))
  process : ∀ {supervision}, run.supervision = some supervision → supervision.BlamesProcess

variable {run : Run} {runner : Runner} {limit : Time} {ticket : Ticket}

theorem Unrefused.supervised (unrefused : run.Unrefused) {change : Supervision → Supervision}
    (keeps : ∀ {supervision : Supervision}, supervision.BlamesProcess →
      (change supervision).BlamesProcess) : (run.supervised change).Unrefused := by
  unfold Run.supervised
  split
  · rename_i before process
    have blames := keeps (unrefused.process process)
    unfold kept
    split
    · rename_i outcome _ finished
      refine ⟨nofun, ?_, ?_⟩
      · intro refusal ended
        cases ended
        cases blames _ (Supervision.outcome?_eq_some_iff.mp finished)
      · rintro _ ⟨⟩
        exact blames
    · refine ⟨unrefused.tried, unrefused.ended, ?_⟩
      rintro _ ⟨⟩
      exact blames
  · exact unrefused

theorem Unrefused.heed (unrefused : run.Unrefused) (action : Action) :
    (run.heed runner limit ticket action).Unrefused := by
  unfold Run.heed
  split
  · split
    · unfold launched
      split
      · rename_i admitted
        exact absurd admitted unrefused.tried
      · exact unrefused
    · exact unrefused
  · split
    · exact unrefused.supervised fun blames => blames.observe _ _
    · exact unrefused
  · exact unrefused.supervised fun blames => blames.elapse _
  · split
    · unfold givenUp
      split
      · exact unrefused
      · exact unrefused
      · refine ⟨nofun, nofun, ?_⟩
        intro supervision left
        obtain ⟨before, process, rfl⟩ := Option.map_eq_some_iff.mp left
        exact (unrefused.process process).abandon
    · exact unrefused
  · exact unrefused

theorem Unrefused.heedAll (unrefused : run.Unrefused) (actions : List Action) :
    (run.heedAll runner limit ticket actions).Unrefused := by
  induction actions generalizing run with
  | nil => exact unrefused
  | cons action actions ih => exact ih (unrefused.heed action)

/-! ### The attempt to start it -/

variable {request : Request} {now : Time} {probe : String → PathKind}
  {spawned : Except String Answers}

theorem launched_of_refused (admitted : run.stage = .admitted request) {refusal : Refusal}
    (refused : runner.check probe request.argv = .error refusal) :
    run.launched runner limit now probe spawned =
      { run with stage := .ended (.error (.refused refusal)) } := by
  simp only [launched, admitted, refused, Runner.start]

theorem unrefused_launched (admitted : run.stage = .admitted request)
    (idle : run.supervision = none) (accepted : runner.check probe request.argv = .ok ()) :
    (run.launched runner limit now probe spawned).Unrefused := by
  by_cases timed : (now + limit).IsInstant
  · cases spawned with
    | error cause =>
        simp only [launched, admitted, accepted, Runner.start, if_pos timed]
        exact ⟨by simp, by simp, by simp [idle]⟩
    | ok answers =>
        simp only [launched, admitted, accepted, Runner.start, if_pos timed]
        refine ⟨by simp, by simp, ?_⟩
        rintro _ ⟨⟩
        simp [Supervision.BlamesProcess, Runner.supervise]
  · simp only [launched, admitted, accepted, Runner.start, if_neg timed]
    exact ⟨by simp, by simp, by simp [idle]⟩

end Run

theorem Executor.outcome?_eq_some_iff {executor : Executor} {ticket : Ticket} {run : Run}
    (known : executor.run? ticket = some run) {outcome : Outcome} :
    executor.outcome? ticket = some outcome ↔ run.stage = .ended outcome := by
  obtain ⟨category, request, pooled, stage, supervision⟩ := run
  rw [Executor.outcome?, known]
  cases stage <;> simp

namespace World

variable {setup : Setup} {ticket : Ticket} {run : Run} {request : Request}

/-- How a run that was let in with a request fares, in a state after it has been tried. -/
structure RefusedAsChecked (setup : Setup) (probe : String → PathKind) (ticket : Ticket)
    (run : Run) (request : Request) (later : World) : Prop where
  /-- It fails with a refusal exactly if the check refuses the command that it was let in with. -/
  refused : ∀ refusal, later.executor.outcome? ticket = some (.error (.refused refusal)) ↔
    setup.runner.check probe request.argv = .error refusal
  unstarted : ∀ refusal, setup.runner.check probe request.argv = .error refusal →
    later.process? ticket = none
  /-- At a gate that is the command it asked for. -/
  gated : run.pooled = false → request = run.request
  /-- At the pool it is that command pointed at one of the servers. -/
  pooled : run.pooled = true → ∃ server ∈ setup.resolved.1, ∃ executable arguments,
    request = run.request.pointedAt server ∧ run.request.argv = executable :: arguments ∧
      Endpoint.CheckedAlike executable arguments server
        (setup.runner.check probe run.request.argv) (setup.runner.check probe request.argv)

/-- Once a run was tried, it has been refused as the check says, and stays so. -/
theorem refusedAsChecked_launch (actions : List Action)
    (known : (World.run setup actions).executor.run? ticket = some run)
    (admitted : run.stage = .admitted request) (now : Time) (probe : String → PathKind)
    (spawned : Except String Answers) (more : List Action) :
    RefusedAsChecked setup probe ticket run request
      (((World.run setup actions).step (.launch ticket now probe spawned)).through more) := by
  have coherent := coherent_run setup actions
  obtain ⟨idle, origin⟩ := (faithful_run actions known).admitted admitted
  have told : run.stage ≠ .waiting := by
    rw [admitted]
    nofun
  -- The attempt and all that follows is a function of the run.
  have later := coherent.run?_through_of_told known told (.launch ticket now probe spawned :: more)
  change (((World.run setup actions).step (.launch ticket now probe spawned)).through
    more).executor.run? ticket = some _ at later
  rw [runner_run] at later
  generalize ((World.run setup actions).step (.launch ticket now probe spawned)).through more =
    world at later
  generalize (World.run setup actions).executor.limitOf run = limit at later
  change world.executor.run? ticket = some ((Run.heed setup.runner limit ticket run
    (.launch ticket now probe spawned)).heedAll setup.runner limit ticket more) at later
  simp only [Run.heed, if_true] at later
  -- A refusal is there to stay, and whoever is not refused now will not be.
  have refused {refusal : Refusal}
      (verdict : setup.runner.check probe request.argv = .error refusal) :
      world.executor.run? ticket =
        some { run with stage := .ended (.error (.refused refusal)) } := by
    rw [later, Run.launched_of_refused admitted verdict, Run.heedAll_of_ended idle]
  constructor
  case refused =>
    intro refusal
    constructor
    · intro fails
      cases verdict : setup.runner.check probe request.argv with
      | ok =>
          have ended := (Executor.outcome?_eq_some_iff later).mp fails
          exact absurd ended ((Run.unrefused_launched admitted idle verdict).heedAll more).ended
      | error other =>
          have ended := (Executor.outcome?_eq_some_iff (refused verdict)).mp fails
          cases ended
          rfl
    · intro verdict
      exact (Executor.outcome?_eq_some_iff (refused verdict)).mpr rfl
  case unstarted =>
    intro refusal verdict
    rw [process?, refused verdict, Option.bind_some]
    exact idle
  case gated =>
    intro gated
    rcases origin with ⟨_, same⟩ | ⟨pooled, _⟩
    · exact same
    · rw [gated] at pooled
      cases pooled
  case pooled =>
    intro pooled
    rcases origin with ⟨gated, _⟩ | ⟨_, server, member, rfl⟩
    · rw [pooled] at gated
      cases gated
    · obtain ⟨_, executable, arguments, given, _⟩ := (faithful_run actions known).client pooled
      refine ⟨server, member, executable, arguments, rfl, given, ?_⟩
      have alike := Endpoint.checkedAlike setup.runner.allowed probe executable arguments server
      rwa [← given] at alike

/-- An executor with one pooled server. -/
def oneServer : Setup where
  endpoints := some [.plain "127.0.0.1" 2003]

/-- A command for the pooled server, with a line feed in its only argument. -/
def brokenRequest : Request := ⟨["unoconvert", "in\n"], none⟩

/-- A command with a line feed in a flag that is taken away when it is pointed at a server. -/
def strayRequest : Request := ⟨["unoconvert", "--host=a\n", "in.odt"], none⟩

/-- The run of a request that was let in to the pooled server. -/
def leasedRun (request : Request) : Run where
  category := .libreOffice
  request := request
  pooled := true
  stage := .admitted (request.pointedAt (.plain "127.0.0.1" 2003))

theorem refusedAsChecked_launch_broken :
    (World.run oneServer [.begin .libreOffice brokenRequest]).executor.run? 0 =
        some (leasedRun brokenRequest) ∧
      RefusedAsChecked oneServer (fun _ => .missing) 0 (leasedRun brokenRequest)
        (brokenRequest.pointedAt (.plain "127.0.0.1" 2003))
        (((World.run oneServer [.begin .libreOffice brokenRequest]).step
          (.launch 0 0 (fun _ => .missing) (.ok {}))).through [.shutdown]) :=
  have known : (World.run oneServer [.begin .libreOffice brokenRequest]).executor.run? 0 =
      some (leasedRun brokenRequest) := rfl
  ⟨known, refusedAsChecked_launch [.begin .libreOffice brokenRequest] known rfl 0
    (fun _ => .missing) (.ok {}) [.shutdown]⟩

theorem refusals_differ :
    oneServer.runner.check (fun _ => .missing) brokenRequest.argv =
        .error (.unsafeCharacters 1) ∧
      (World.run oneServer [.begin .libreOffice brokenRequest,
        .launch 0 0 (fun _ => .missing) (.ok {})]).executor.outcome? 0 =
          some (.error (.refused (.unsafeCharacters 5))) ∧
      oneServer.runner.check (fun _ => .missing) strayRequest.argv =
        .error (.unsafeCharacters 1) ∧
      ((World.run oneServer [.begin .libreOffice strayRequest,
        .launch 0 0 (fun _ => .missing) (.ok {})]).process? 0).isSome = true :=
  ⟨rfl, rfl, rfl, rfl⟩

end World

end Turnstile
