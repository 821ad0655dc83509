import Turnstile.Proofs.Child.Capture

/-!
# The journal of a run

What there is to report of a run is one journal, whether it is logged line by line or
in a summary.  Nothing but the log of a run depends on how its journal is written.
-/

namespace Turnstile.Supervision

open Output (Channel Drain Line SinkLine)

/-! ## Entries -/

/-- Something to report of a run. -/
inductive Entry where
  /-- A line arrives by a pipe. -/
  | line (channel : Channel) (line : Line)
  /-- The process has ended in time, with these lines stored. -/
  | captured (out err : List String)
  | warned (warning : String)
  deriving DecidableEq, Repr

/-- What is logged of an entry, line by line or not. -/
def Entry.log (live : Bool) : Entry → List LogLine
  | .line _ given => given.log live
  | .captured out err =>
    if live then []
    else summary .info "Command output" out ++ summary .warn "Command error output" err
  | .warned warning => [.warn warning]

/-- A journal as it is logged. -/
def logged (live : Bool) (entries : List Entry) : List LogLine :=
  entries.flatMap (Entry.log live)

theorem logged_append (live : Bool) (entries more : List Entry) :
    logged live (entries ++ more) = logged live entries ++ logged live more :=
  List.flatMap_append

/-- The supervision with its log in another manner. -/
def logging (live : Bool) (log : Array LogLine) (supervision : Supervision) : Supervision :=
  { supervision with live, log }

/-- What is done adds some entries to the journal, and depends on the log in nothing else. -/
def Adds (act : Supervision → Supervision) (supervision : Supervision) (entries : List Entry) :
    Prop :=
  ∀ live log, act (supervision.logging live log) =
    (act supervision).logging live (log ++ logged live entries)

variable {act next : Supervision → Supervision} {supervision before after last : Supervision}
  {entries more : List Entry}

theorem Adds.comp (adds : Adds act supervision entries) (later : Adds next (act supervision) more) :
    Adds (fun supervision => next (act supervision)) supervision (entries ++ more) := by
  intro live log
  have same : log ++ logged live entries ++ logged live more =
      log ++ logged live (entries ++ more) :=
    Array.ext' (by simp [logged_append])
  change next (act (supervision.logging live log)) = _
  rw [adds, later, same]

/-- What logs nothing. -/
theorem Adds.nothing (same : ∀ live log,
    act (supervision.logging live log) = (act supervision).logging live log) :
    Adds act supervision [] := by
  intro live log
  rw [same]
  simp [logged]

/-! ## What each step adds -/

/-- The lines that a drain gives away with its next step. -/
def newLines (channel : Channel) (supervision : Supervision) : List Line :=
  match (supervision.drain channel).step? with
  | none => []
  | some next =>
    (next.given.extract (supervision.drain channel).given.size next.given.size).toList

/-- What is reported of a process that ended in time. -/
def report (supervision : Supervision) (code : Int) : List Entry :=
  .captured supervision.out.stored.toList supervision.err.stored.toList ::
    if isWarningExit supervision.program code then
      [.warned "qpdf completed with warnings (exit code 3)"] else []

/-- What is reported when nothing is left to wait for. -/
def closing (supervision : Supervision) : List Entry :=
  match supervision.phase with
  | .draining status =>
    if supervision.out.isOver && supervision.err.isOver then supervision.report status.code else []
  | _ => []

/-- What is reported of an ending when signals were tried. -/
def failure (shutdown : Shutdown) : List Entry :=
  match shutdown.stage with
  | .failed _ => [.warned unendedWarning.text]
  | _ => []

/-- What is reported when the deadline has passed. -/
def overdue (supervision : Supervision) : List Entry :=
  match supervision.phase with
  | .running =>
    .warned timeoutWarning.text ::
      failure (.begin supervision.deadline supervision.grace none supervision.answers.term)
  | .draining _ => [.warned openStreamsWarning.text]
  | _ => []

/-- What is reported when the time given to the process has run out before `now`. -/
def outlasted (now : Time) (supervision : Supervision) : List Entry :=
  match supervision.phase with
  | .stopping shutdown => failure (shutdown.expire now supervision.answers.kill)
  | _ => []

/-- What is reported of the time before `now`. -/
def elapsed (now : Time) (supervision : Supervision) : List Entry :=
  if supervision.deadline < now then
    supervision.overdue ++ supervision.expireDeadline.outlasted now
  else supervision.outlasted now

/-- What is reported when the process cannot be waited for. -/
def unended (supervision : Supervision) : List Entry :=
  match supervision.phase with
  | .stopping _ => [.warned unendedWarning.text]
  | _ => []

/-- What is reported of an event itself. -/
def heardEntries (supervision : Supervision) : ProcessEvent → List Entry
  | .drained channel => (supervision.newLines channel).map (.line channel)
  | .waitFailed _ => supervision.unended
  | _ => []

def newEntries (supervision : Supervision) : Move → List Entry
  | .hears event => supervision.heardEntries event ++ (supervision.apply event).closing
  | .waits now => supervision.elapsed now
  | _ => []

/-- All that there is to report of a run. -/
def journal (supervision : Supervision) : List Move → List Entry
  | [] => []
  | first :: moves => supervision.newEntries first ++ (supervision.move first).journal moves

section

variable (supervision) (live : Bool) (log : Array LogLine)

theorem phase_logging : (supervision.logging live log).phase = supervision.phase :=
  rfl

theorem drain_logging (channel : Channel) :
    (supervision.logging live log).drain channel = supervision.drain channel := by
  cases channel <;> rfl

theorem append_logged_warned (warning : String) :
    log ++ logged live [.warned warning] = log.push (.warn warning) :=
  Array.ext' (by simp [logged, Entry.log])

theorem logged_map_line (channel : Channel) (lines : List Line) :
    logged live (lines.map (.line channel)) = lines.flatMap (Line.log live) := by
  simp [logged, Entry.log, List.flatMap_map]

end

variable (supervision)

theorem adds_setDrain (channel : Channel) (drain : Drain → Drain) :
    Adds (fun supervision => supervision.setDrain channel (drain (supervision.drain channel)))
      supervision [] := by
  refine .nothing fun live log => ?_
  cases channel <;> rfl

theorem adds_drainStep (channel : Channel) : Adds (drainStep channel) supervision
    ((supervision.newLines channel).map (.line channel)) := by
  intro live log
  rw [logged_map_line]
  cases stepped : (supervision.drain channel).step? with
  | none => simp [drainStep, newLines, drain_logging, stepped]
  | some next =>
      simp only [drainStep, newLines, drain_logging, stepped]
      cases channel <;> rfl

theorem adds_follow (shutdown : Shutdown) : Adds (follow shutdown) supervision [] := by
  refine .nothing fun live log => ?_
  unfold follow
  split <;> rfl

/-- What is logged at the end is what there is to report. -/
theorem closingLog_logging (live : Bool) (log : Array LogLine) (code : Int) :
    (supervision.logging live log).closingLog code = logged live (supervision.report code) := by
  cases live <;> cases warned : isWarningExit supervision.program code <;>
    simp [closingLog, report, logged, logging, Entry.log, warned]

theorem adds_conclude : Adds conclude supervision supervision.closing := by
  intro live log
  cases phase : supervision.phase with
  | draining status =>
      cases ended : supervision.out.isOver && supervision.err.isOver with
      | false => simp [conclude, closing, phase, ended, logging, logged]
      | true =>
          have both : ((supervision.logging live log).out.isOver &&
              (supervision.logging live log).err.isOver) = true := ended
          simp only [conclude, closing, phase_logging, phase, ended, both, if_true]
          rw [← closingLog_logging supervision live log]
          rfl
  | _ => simp [conclude, closing, phase_logging, phase, logged]

theorem adds_exit (status : ExitStatus) : Adds (exit status) supervision [] := by
  cases phase : supervision.phase with
  | running =>
      refine .nothing fun live log => ?_
      simp only [exit, phase_logging, phase]
      rfl
  | stopping shutdown =>
      have follows := adds_follow supervision (shutdown.exit status)
      intro live log
      simpa only [exit, phase_logging, phase] using follows live log
  | _ => exact .nothing fun live log => by simp only [exit, phase_logging, phase]

theorem adds_failWait (cause : String) :
    Adds (failWait cause) supervision supervision.unended := by
  intro live log
  cases phase : supervision.phase with
  | running =>
      simp only [failWait, unended, phase_logging, phase]
      simp [logging, logged]
  | stopping shutdown =>
      simp only [failWait, unended, phase_logging, phase, append_logged_warned]
      rfl
  | _ => simp [failWait, unended, phase_logging, phase, logged]

theorem adds_abandon : Adds abandon supervision [] := by
  refine .nothing fun live log => ?_
  cases phase : supervision.phase <;> simp [abandon, phase, logging]

theorem adds_warning (warning : String) :
    Adds (fun supervision => { supervision with log := supervision.log.push (.warn warning) })
      supervision [.warned warning] := by
  intro live log
  rw [append_logged_warned]
  rfl

/-- An ending that fails is reported. -/
theorem adds_pursue (signals : List Signal) (shutdown : Shutdown) :
    Adds (pursue signals shutdown) supervision (failure shutdown) := by
  intro live log
  cases stage : shutdown.stage with
  | failed cause =>
      simp only [pursue, failure, stage, append_logged_warned]
      rfl
  | _ =>
      simp only [pursue, failure, stage]
      simp [logged, logging]

theorem adds_expireDeadline : Adds expireDeadline supervision supervision.overdue := by
  intro live log
  cases phase : supervision.phase with
  | running =>
      let shutdown :=
        Shutdown.begin supervision.deadline supervision.grace none supervision.answers.term
      have adds := (adds_warning supervision timeoutWarning.text).comp
        (adds_pursue _ shutdown.tried shutdown)
      simp only [expireDeadline, overdue, phase_logging, phase]
      exact adds live log
  | draining status =>
      simp only [expireDeadline, overdue, phase_logging, phase, append_logged_warned]
      rfl
  | _ => simp [expireDeadline, overdue, phase_logging, phase, logged]

theorem adds_expireGrace (now : Time) :
    Adds (expireGrace now) supervision (supervision.outlasted now) := by
  intro live log
  cases phase : supervision.phase with
  | stopping shutdown =>
      let later := shutdown.expire now supervision.answers.kill
      simp only [expireGrace, outlasted, phase_logging, phase]
      exact adds_pursue supervision (later.tried.drop shutdown.tried.length) later live log
  | _ => simp [expireGrace, outlasted, phase, logged, logging]

theorem adds_expire (now : Time) : Adds (expire now) supervision (supervision.elapsed now) := by
  unfold elapsed
  by_cases late : supervision.deadline < now
  · rw [if_pos late]
    have adds := (adds_expireDeadline supervision).comp (adds_expireGrace _ now)
    intro live log
    have same : (supervision.logging live log).deadline < now := late
    simpa only [expire, if_pos late, if_pos same] using adds live log
  · rw [if_neg late]
    intro live log
    have same : ¬ (supervision.logging live log).deadline < now := late
    simpa only [expire, if_neg late, if_neg same] using adds_expireGrace supervision now live log

theorem adds_apply (event : ProcessEvent) :
    Adds (apply event) supervision (supervision.heardEntries event) := by
  cases event with
  | wrote channel bytes => exact adds_setDrain supervision channel (Drain.feed bytes)
  | closed channel => exact adds_setDrain supervision channel Drain.close
  | drained channel => exact adds_drainStep supervision channel
  | lost channel => exact adds_setDrain supervision channel Drain.lose
  | exited status => exact adds_exit supervision status
  | waitFailed cause => exact adds_failWait supervision cause

theorem adds_move (move : Move) :
    Adds (fun supervision => supervision.move move) supervision (supervision.newEntries move) := by
  cases move with
  | hears event => exact (adds_apply supervision event).comp (adds_conclude _)
  | waits now => exact adds_expire supervision now
  | stops channel => exact adds_setDrain supervision channel Drain.abort
  | leaves => exact adds_abandon supervision

/-- Two runs that are logged in two manners differ in their logs alone, which hold one journal. -/
theorem adds_run (moves : List Move) :
    Adds (fun supervision => supervision.run moves) supervision (supervision.journal moves) := by
  induction moves generalizing supervision with
  | nil => exact .nothing fun _ _ => rfl
  | cons first moves ih => exact (adds_move supervision first).comp (ih _)

/-! ## The lines in a journal -/

/-- The lines that a journal tells of, with the pipes by which they came. -/
def told (entries : List Entry) : List (Channel × Line) :=
  entries.filterMap fun
    | .line channel line => some (channel, line)
    | _ => none

def linesOn (channel : Channel) (lines : List (Channel × Line)) : List Line :=
  (lines.filter fun item => item.1 = channel).map Prod.snd

/-- The lines in the entries are those that the sink was given and that the drains gave away. -/
structure Accounts (entries : List Entry) (before after : Supervision) : Prop where
  program : after.program = before.program
  sink : after.sink.toList = before.sink.toList ++
    (told entries).map fun item => SinkLine.ofLine before.program item.1 item.2
  given : ∀ channel, (after.drain channel).given.toList =
    (before.drain channel).given.toList ++ linesOn channel (told entries)

variable {supervision} {channel : Channel}

theorem told_append : told (entries ++ more) = told entries ++ told more :=
  List.filterMap_append

theorem told_map_line (lines : List Line) :
    told (lines.map (.line channel)) = lines.map (channel, ·) := by
  simp [told, List.filterMap_map]

theorem linesOn_append (lines others : List (Channel × Line)) :
    linesOn channel (lines ++ others) = linesOn channel lines ++ linesOn channel others := by
  simp [linesOn]

theorem linesOn_self (lines : List Line) : linesOn channel (lines.map (channel, ·)) = lines := by
  simp [linesOn, List.filter_map, Function.comp_def]

theorem linesOn_of_ne {other : Channel} (different : other ≠ channel) (lines : List Line) :
    linesOn other (lines.map (channel, ·)) = [] := by
  simp [linesOn, List.filter_map, Function.comp_def, different.symm]

namespace Accounts

theorem of_silent (silent : told entries = []) (program : after.program = before.program)
    (sink : after.sink = before.sink)
    (given : ∀ channel, (after.drain channel).given = (before.drain channel).given) :
    Accounts entries before after where
  program := program
  sink := by simp [silent, sink]
  given channel := by simp [silent, given channel, linesOn]

theorem of_leavesDrains (silent : told entries = []) (leaves : LeavesDrains before after) :
    Accounts entries before after :=
  .of_silent silent (congrArg Terms.program leaves.terms) leaves.sink
    fun channel => (leaves.told channel).given

theorem of_told {drain : Drain} (same : (before.drain channel).Told drain) :
    Accounts [] before (before.setDrain channel drain) := by
  refine .of_silent rfl (by cases channel <;> rfl) (by cases channel <;> rfl) ?_
  exact forall_drain_setDrain _ (fun other drain => drain.given = (before.drain other).given)
    same.given fun _ _ => rfl

theorem trans (one : Accounts entries before after) (two : Accounts more after last) :
    Accounts (entries ++ more) before last where
  program := two.program.trans one.program
  sink := by rw [two.sink, one.sink, one.program, told_append, List.map_append, List.append_assoc]
  given channel := by
    rw [two.given, one.given, told_append, linesOn_append, List.append_assoc]

end Accounts

theorem given_newLines {next : Drain} (stepped : (supervision.drain channel).step? = some next) :
    next.given.toList =
      (supervision.drain channel).given.toList ++ supervision.newLines channel := by
  obtain ⟨new, given⟩ := Drain.given_of_step? stepped
  simp [newLines, stepped, given, ← Array.length_toList]

theorem accounts_drainStep : Accounts ((supervision.newLines channel).map (.line channel))
    supervision (supervision.drainStep channel) := by
  cases stepped : (supervision.drain channel).step? with
  | none =>
      have same : supervision.drainStep channel = supervision := by rw [drainStep, stepped]
      have none : supervision.newLines channel = [] := by rw [newLines, stepped]
      rw [same, none]
      exact .of_silent rfl rfl rfl fun _ => rfl
  | some next =>
      constructor
      case program => exact congrArg Terms.program (terms_drainStep supervision channel)
      case sink =>
        rw [told_map_line, List.map_map]
        simp [drainStep, newLines, stepped, Function.comp_def]
      case given =>
        intro other
        rw [told_map_line]
        by_cases same : other = channel
        · subst same
          rw [drain_drainStep_self, stepped, Option.getD_some, linesOn_self,
            given_newLines stepped]
        · rw [drain_drainStep_of_ne _ same, linesOn_of_ne same, List.append_nil]

theorem told_report (supervision : Supervision) (code : Int) :
    told (supervision.report code) = [] := by
  unfold report
  split <;> rfl

theorem told_closing (supervision : Supervision) : told supervision.closing = [] := by
  unfold closing
  split
  · split
    · exact told_report _ _
    · rfl
  · rfl

theorem told_unended (supervision : Supervision) : told supervision.unended = [] := by
  unfold unended
  split <;> rfl

theorem told_failure (shutdown : Shutdown) : told (failure shutdown) = [] := by
  unfold failure
  split <;> rfl

theorem told_overdue (supervision : Supervision) : told supervision.overdue = [] := by
  unfold overdue
  split
  · exact told_failure _
  · rfl
  · rfl

theorem told_outlasted (now : Time) (supervision : Supervision) :
    told (supervision.outlasted now) = [] := by
  unfold outlasted
  split
  · exact told_failure _
  · rfl

theorem told_elapsed (now : Time) (supervision : Supervision) :
    told (supervision.elapsed now) = [] := by
  unfold elapsed
  split
  · rw [told_append, told_overdue, told_outlasted, List.append_nil]
  · exact told_outlasted now supervision

theorem accounts_apply (event : ProcessEvent) :
    Accounts (supervision.heardEntries event) supervision (supervision.apply event) := by
  cases event with
  | wrote channel bytes => exact .of_told (Drain.told_feed _ bytes)
  | closed channel => exact .of_told (Drain.told_close _)
  | drained channel => exact accounts_drainStep
  | lost channel => exact .of_told (Drain.told_lose _)
  | exited status => exact .of_leavesDrains rfl (leavesDrains_exit supervision status)
  | waitFailed cause =>
      exact .of_leavesDrains (told_unended _) (leavesDrains_failWait supervision cause)

theorem accounts_move (move : Move) :
    Accounts (supervision.newEntries move) supervision (supervision.move move) := by
  cases move with
  | hears event =>
      have concluded := leavesDrains_conclude (supervision.apply event)
      exact (accounts_apply event).trans (.of_leavesDrains (told_closing _) concluded)
  | waits now =>
      exact .of_leavesDrains (told_elapsed now supervision) (leavesDrains_expire supervision now)
  | stops channel => exact .of_leavesDrains rfl (leavesDrains_stop supervision channel)
  | leaves => exact .of_leavesDrains rfl (leavesDrains_abandon supervision)

/-- A journal tells of all the lines that arrive in a run, and in the order in which they do. -/
theorem accounts_run (moves : List Move) :
    Accounts (supervision.journal moves) supervision (supervision.run moves) := by
  induction moves generalizing supervision with
  | nil => exact .of_silent rfl rfl rfl fun _ => rfl
  | cons first moves ih => exact (accounts_move first).trans ih

end Turnstile.Supervision
