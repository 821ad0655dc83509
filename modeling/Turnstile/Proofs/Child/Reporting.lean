import Turnstile.Proofs.Child.Journal
import Turnstile.Proofs.Child.Leftover
import Turnstile.Proofs.Child.Messages

/-!
# Lines reported as they arrive, or at the end

A runner logs each line as it arrives, or all lines of a process at its end.  Either
way the log is written from one journal, of which a run that ends in time has no more
than its lines, then what is reported of its end.
-/

namespace Turnstile

open Output (Channel Drain Line SinkLine onChannel)
open Text (Bytes)

/-- The runner that reports lines as they arrive, or at the end. -/
def Runner.reporting (live : Bool) (runner : Runner) : Runner :=
  { runner with live }

/-- The texts of a log at one level. -/
def textsAt (level : LogLevel) (lines : List LogLine) : List String :=
  (lines.filter fun line => line.level = level).map LogLine.text

theorem textsAt_append (level : LogLevel) (lines more : List LogLine) :
    textsAt level (lines ++ more) = textsAt level lines ++ textsAt level more := by
  simp [textsAt]

/-- Lines under a heading, if there are any. -/
def headed (heading : String) (lines : List String) : List String :=
  if lines = [] then [] else [heading ++ ":\n" ++ "\n".intercalate lines]

theorem textsAt_summary (level other : LogLevel) (heading : String) (lines : List String) :
    textsAt level (Supervision.summary (LogLine.mk other) heading lines) =
      if other = level then headed heading lines else [] := by
  cases lines with
  | nil => cases level <;> cases other <;> rfl
  | cons line lines => cases level <;> cases other <;> rfl

namespace Supervision

variable {past : List ProcessEvent} {supervision later : Supervision} {channel : Channel}
  {program : String} {code : Int}

/-! ## The end of a journal -/

/-- What has been reported of the end of a run. -/
def remarks (supervision : Supervision) : List Entry :=
  match supervision.phase with
  | .over (.ok completion) => supervision.report completion.exitCode
  | .over (.error (.exited _ code _)) => supervision.report code
  | _ => []

/-- Entries for lines and for nothing else. -/
def plain (lines : List (Channel × Line)) : List Entry :=
  lines.map fun item => .line item.1 item.2

/-- Entries for lines, then what has been reported of the end of a run. -/
def EndsWith (entries : List Entry) (supervision : Supervision) : Prop :=
  ∃ lines, entries = plain lines ++ supervision.remarks

theorem plain_append (lines more : List (Channel × Line)) :
    plain (lines ++ more) = plain lines ++ plain more :=
  List.map_append

theorem remarks_of_classify {messages : String}
    (finished : supervision.phase = .over (classify program code messages)) :
    supervision.remarks = supervision.report code := by
  unfold classify at finished
  split at finished <;> rw [remarks, finished]

theorem report_of_eq (program : later.program = supervision.program)
    (stored : ∀ channel, (later.drain channel).stored = (supervision.drain channel).stored)
    (code : Int) : later.report code = supervision.report code := by
  have out : later.out.stored = supervision.out.stored := stored .out
  have err : later.err.stored = supervision.err.stored := stored .err
  rw [report, report, out, err, program]

theorem remarks_of_eq (phase : later.phase = supervision.phase)
    (program : later.program = supervision.program)
    (stored : ∀ channel, (later.drain channel).stored = (supervision.drain channel).stored) :
    later.remarks = supervision.remarks := by
  simp only [remarks, phase, report_of_eq program stored]

theorem remarks_conclude (supervision : Supervision) :
    supervision.conclude.remarks = supervision.remarks ++ supervision.closing := by
  cases phase : supervision.phase with
  | draining status =>
      cases ended : supervision.out.isOver && supervision.err.isOver with
      | false => simp [conclude, closing, remarks, phase, ended]
      | true =>
          have finished : supervision.conclude.phase =
              .over (classify supervision.program status.code supervision.messages) := by
            simp [conclude, phase, ended]
          have same := report_of_eq (congrArg Terms.program (terms_conclude supervision))
            (fun channel => congrArg Drain.stored (drain_conclude supervision channel)) status.code
          rw [remarks_of_classify finished, same]
          simp [closing, remarks, phase, ended]
  | _ => simp [conclude, closing, remarks, phase]

theorem remarks_exit (supervision : Supervision) (status : ExitStatus) :
    (supervision.exit status).remarks = supervision.remarks := by
  cases phase : supervision.phase with
  | stopping shutdown =>
      cases ended : (shutdown.exit status).isOver <;>
        simp [exit, follow, cutOff, remarks, phase, ended]
  | _ => simp [exit, remarks, phase]

/-- A drain that has told its last line adds no line, and what has been reported stays. -/
theorem AtWork.remarks_drainStep (works : AtWork past supervision) (channel : Channel) :
    EndsWith (supervision.remarks ++ (supervision.newLines channel).map (.line channel))
      (supervision.drainStep channel) := by
  have going (none : supervision.remarks = [])
      (still : (supervision.drainStep channel).remarks = []) :
      EndsWith (supervision.remarks ++ (supervision.newLines channel).map (.line channel))
        (supervision.drainStep channel) :=
    ⟨(supervision.newLines channel).map (channel, ·), by simp [plain, none, still]⟩
  cases heard : exit? past with
  | none =>
      have running := works.running heard
      exact going (by simp [remarks, running]) (by simp [remarks, running])
  | some status =>
      rcases works.exited status heard with draining | ⟨stopped, _⟩
      · exact going (by simp [remarks, draining]) (by simp [remarks, draining])
      · -- The end of the run has been reported, and then both drains are over.
        have rests := Drain.step?_eq_none_of_isOver (stopped channel)
        have same : supervision.drainStep channel = supervision := by
          rw [Supervision.drainStep, rests]
        have none : supervision.newLines channel = [] := by rw [newLines, rests]
        exact ⟨[], by simp [plain, same, none]⟩

theorem AtWork.remarks_apply (works : AtWork past supervision) {event : ProcessEvent}
    (sound : event.Sound) :
    EndsWith (supervision.remarks ++ supervision.heardEntries event) (supervision.apply event) := by
  have silent (none : supervision.heardEntries event = [])
      (same : (supervision.apply event).remarks = supervision.remarks) :
      EndsWith (supervision.remarks ++ supervision.heardEntries event) (supervision.apply event) :=
    ⟨[], by simp [plain, none, same]⟩
  have setDrain (channel : Channel) {drain : Drain}
      (told : (supervision.drain channel).Told drain) :
      (supervision.setDrain channel drain).remarks = supervision.remarks :=
    remarks_of_eq (phase_setDrain _ _ _) (congrArg Terms.program (terms_setDrain _ _ _)) <|
      forall_drain_setDrain _ (fun other drain => drain.stored = (supervision.drain other).stored)
        told.stored fun _ _ => rfl
  cases event with
  | wrote channel bytes => exact silent rfl (setDrain channel (Drain.told_feed _ _))
  | closed channel => exact silent rfl (setDrain channel (Drain.told_close _))
  | drained channel => exact works.remarks_drainStep channel
  | lost channel => exact absurd sound id
  | exited status => exact silent rfl (remarks_exit supervision status)
  | waitFailed cause => exact absurd sound id

/-- There is nothing to report of the time up to the deadline. -/
theorem AtWork.elapsed_eq_nil (works : AtWork past supervision) {now : Time}
    (early : now ≤ supervision.deadline) : supervision.elapsed now = [] := by
  rw [elapsed, if_neg (Nat.not_lt.mpr early)]
  cases heard : exit? past with
  | none => simp [outlasted, works.running heard]
  | some status =>
      rcases works.exited status heard with draining | ⟨_, _, finished⟩
      · simp [outlasted, draining]
      · simp [outlasted, finished]

theorem OnTime.remarks_move (onTime : OnTime past supervision) {move : Move}
    (timely : move.IsTimely supervision.deadline) :
    EndsWith (supervision.remarks ++ supervision.newEntries move) (supervision.move move) := by
  cases move with
  | hears event =>
      obtain ⟨lines, applied⟩ := onTime.works.remarks_apply timely
      refine ⟨lines, ?_⟩
      change _ ++ (_ ++ _) = _ ++ (supervision.apply event).conclude.remarks
      rw [← List.append_assoc, applied, remarks_conclude, List.append_assoc]
  | waits now =>
      have same : supervision.move (.waits now) = supervision := onTime.works.expire timely
      have silent : supervision.elapsed now = [] := onTime.works.elapsed_eq_nil timely
      exact ⟨[], by simp [newEntries, silent, same, plain]⟩
  | stops channel => exact absurd timely id
  | leaves => exact absurd timely id

/-- The journal of a run that is on time holds its lines, then what is reported of its end. -/
theorem OnTime.remarks_run (onTime : OnTime past supervision) {moves : List Move}
    (timely : ∀ move ∈ moves, move.IsTimely supervision.deadline) :
    EndsWith (supervision.remarks ++ supervision.journal moves) (supervision.run moves) := by
  induction moves generalizing past supervision with
  | nil => exact ⟨[], List.append_nil _⟩
  | cons first moves ih =>
      have soon := timely first List.mem_cons_self
      have same : (supervision.move first).deadline = supervision.deadline :=
        congrArg Terms.deadline (terms_move supervision first)
      obtain ⟨lines, one⟩ := onTime.remarks_move soon
      obtain ⟨more, rest⟩ := ih (onTime.move soon) fun later member =>
        same ▸ timely later (List.mem_cons_of_mem _ member)
      refine ⟨lines ++ more, ?_⟩
      change _ ++ (_ ++ _) = _ ++ ((supervision.move first).run moves).remarks
      rw [← List.append_assoc, one, List.append_assoc, rest, plain_append, List.append_assoc]

/-! ## How a journal is logged -/

theorem told_plain (lines : List (Channel × Line)) : told (plain lines) = lines := by
  simp [told, plain, List.filterMap_map]

theorem infos_plain (live : Bool) (lines : List (Channel × Line)) :
    textsAt .info (logged live (plain lines)) =
      if live then lines.map fun item => item.2.text else [] := by
  induction lines with
  | nil => cases live <;> rfl
  | cons item lines ih =>
      have own : textsAt .info (item.2.log live) = if live then [item.2.text] else [] := by
        unfold Line.log
        cases live <;> cases item.2.truncated <;> rfl
      change textsAt .info (item.2.log live ++ logged live (plain lines)) = _
      rw [textsAt_append, own, ih]
      cases live <;> rfl

theorem warns_plain (live : Bool) (lines : List (Channel × Line)) :
    textsAt .warn (logged live (plain lines)) =
      List.replicate (lines.countP fun item => item.2.truncated) Line.truncatedWarning.text := by
  induction lines with
  | nil => rfl
  | cons item lines ih =>
      have own : textsAt .warn (item.2.log live) =
          if item.2.truncated then [Line.truncatedWarning.text] else [] := by
        unfold Line.log
        cases live <;> cases item.2.truncated <;> rfl
      change textsAt .warn (item.2.log live ++ logged live (plain lines)) = _
      rw [textsAt_append, own, ih, List.countP_cons]
      cases item.2.truncated <;> rfl

theorem textsAt_captured (level : LogLevel) (live : Bool) (out err : List String) :
    textsAt level (Entry.log live (.captured out err)) =
      if live then []
      else if level = .info then headed "Command output" out
      else headed "Command error output" err := by
  cases live with
  | true => rfl
  | false =>
      change textsAt level (summary (LogLine.mk .info) "Command output" out ++
        summary (LogLine.mk .warn) "Command error output" err) = _
      rw [textsAt_append, textsAt_summary, textsAt_summary]
      cases level <;> simp

/-- What is logged at the end, apart from captured lines. -/
def closingWarnings (program : String) (code : Int) : List String :=
  if isWarningExit program code then ["qpdf completed with warnings (exit code 3)"] else []

theorem textsAt_report (level : LogLevel) (live : Bool) (supervision : Supervision) (code : Int) :
    textsAt level (logged live (supervision.report code)) =
      textsAt level (Entry.log live
        (.captured supervision.out.stored.toList supervision.err.stored.toList)) ++
        if level = .info then [] else closingWarnings supervision.program code := by
  unfold report closingWarnings
  refine (textsAt_append level _ _).trans (congrArg _ ?_)
  split <;> cases level <;> rfl

/-! ## Runs that end in time -/

/-- How many lines of a stream are longer than the limit. -/
def long (cap : Nat) (bytes : Bytes) : Nat :=
  (Output.pieces bytes).countP fun piece => cap < piece.length

/-- What is told and logged of a process that has written `streams` and ended in time. -/
structure Reported (cap : Nat) (program : String) (status : ExitStatus) (streams : Channel → Bytes)
    (live : Bool) (supervision : Supervision) : Prop where
  outcome : supervision.outcome? = some (classify program status.code ("\n".intercalate
    (Output.lines cap (streams .out) ++ Output.lines cap (streams .err))))
  sink : ∀ channel, onChannel channel supervision.sink.toList =
    (Output.lines cap (streams channel)).map (SinkLine.mk program channel)
  /-- Line by line there is one message for each line given to the sink, and else one for all
  lines of standard output. -/
  infos : textsAt .info (Runner.attemptLog (.ok ()) ++ supervision.log.toList) =
    "Running command" ::
      if live then supervision.sink.toList.map SinkLine.text
      else headed "Command output" (Output.lines cap (streams .out))
  warns : textsAt .warn (Runner.attemptLog (.ok ()) ++ supervision.log.toList) =
    List.replicate (long cap (streams .out) + long cap (streams .err)) Line.truncatedWarning.text ++
      (if live then [] else headed "Command error output" (Output.lines cap (streams .err))) ++
        closingWarnings program status.code

theorem countP_eq_add (lines : List (Channel × Line)) :
    (lines.countP fun item => item.2.truncated) =
      (linesOn .out lines).countP Line.truncated + (linesOn .err lines).countP Line.truncated := by
  induction lines with
  | nil => rfl
  | cons item lines ih =>
      obtain ⟨channel, line⟩ := item
      cases channel <;> simp [linesOn, List.countP_cons] at ih ⊢ <;> omega

theorem countP_truncated (cap : Nat) (bytes : Bytes) :
    ((Output.pieces bytes).map (Line.ofPiece cap)).countP Line.truncated = long cap bytes := by
  rw [List.countP_map]
  rfl

theorem log_run (supervision : Supervision) (moves : List Move) :
    (supervision.run moves).log =
      supervision.log ++ logged supervision.live (supervision.journal moves) :=
  congrArg Supervision.log (adds_run supervision moves supervision.live supervision.log)

theorem onTime_supervise (runner : Runner) (program : String) (now limit : Time)
    (answers : Answers) :
    OnTime [] (runner.supervise program now limit answers) :=
  ⟨runner.atWork_supervise program now limit answers,
    fun channel => by cases channel <;> exact .inl rfl, rfl⟩

section

variable (runner : Runner) (now limit : Time) (answers : Answers) {moves : List Move}
  {status : ExitStatus}

/-- A run that has ended in time, and whose drains have read all that was written. -/
structure ReadWhole (cap : Nat) (program : String) (status : ExitStatus)
    (streams : Channel → Bytes) (supervision : Supervision) : Prop where
  ended : supervision.phase = .over (classify program status.code ("\n".intercalate
    (Output.lines cap (streams .out) ++ Output.lines cap (streams .err))))
  sink : ∀ channel, onChannel channel supervision.sink.toList =
    (Output.lines cap (streams channel)).map (SinkLine.mk program channel)
  given : ∀ channel, (supervision.drain channel).given.toList =
    (Output.pieces (streams channel)).map (Line.ofPiece cap)
  stored : ∀ channel, (supervision.drain channel).stored.toList =
    Output.lines cap (streams channel)

theorem readWhole_settle (program : String)
    (timely : ∀ move ∈ moves, move.IsTimely (now + limit)) (done : Done (heard moves) status)
    (ends : PipesEnd (heard moves)) :
    ReadWhole runner.cap program status (fun channel => written channel (heard moves))
      ((runner.supervise program now limit answers).run moves).settle := by
  have onTime := (onTime_supervise runner program now limit answers).run timely
  have captures := ((captures_supervise runner program now limit answers).run ends).settle
  rw [List.nil_append] at onTime captures
  have finished (channel : Channel) := onTime.finished_settle done.closed channel
  have stored (channel : Channel) :=
    ((captures.follows channel).captures.lines_of_finished (finished channel)).2
  constructor
  case ended =>
    obtain ⟨messages, ended⟩ :=
      (onTime.settle.works.over_iff onTime.rests_settle done.exited).1 done.closed
    have told := (captures.outcome _ ended messages (messages?_classify ..)).1
    have out := stored .out
    have err := stored .err
    simp only [drain] at out err
    rw [ended, captures.program_eq, told, Supervision.messages, Supervision.lines, out, err]
  case sink => exact fun channel => (captures.follows channel).sink_of_finished (finished channel)
  case given =>
    exact fun channel => (captures.follows channel).captures.given_of_finished (finished channel)
  case stored => exact stored

/-- A run whose log is written from lines that came, and from what is reported of its end. -/
structure LoggedFrom (lines : List (Channel × Line)) (live : Bool) (program : String) (code : Int)
    (supervision : Supervision) : Prop where
  named : supervision.program = program
  log : supervision.log.toList = logged live (plain lines ++ supervision.report code)
  sink : supervision.sink.toList =
    lines.map fun item => SinkLine.ofLine program item.1 item.2
  given : ∀ channel, (supervision.drain channel).given.toList = linesOn channel lines

theorem exists_loggedFrom_settle (program : String)
    (timely : ∀ move ∈ moves, move.IsTimely (now + limit)) (done : Done (heard moves) status)
    (ends : PipesEnd (heard moves)) :
    ∃ lines, LoggedFrom lines runner.live program status.code
      ((runner.supervise program now limit answers).run moves).settle := by
  have whole := readWhole_settle runner now limit answers program timely done ends
  obtain ⟨steps, settled⟩ :=
    exists_run_settle ((runner.supervise program now limit answers).run moves)
  rw [← run_append] at settled
  rw [settled] at whole ⊢
  generalize longer : moves ++ steps.map (fun channel => .hears (.drained channel)) = all at *
  -- The steps with which the drains run on are moves of the run as well.
  have punctual : ∀ move ∈ all, move.IsTimely (now + limit) := by
    rw [← longer]
    intro move member
    rcases List.mem_append.mp member with member | member
    · exact timely move member
    · obtain ⟨channel, _, rfl⟩ := List.mem_map.mp member
      trivial
  obtain ⟨lines, shape⟩ := (onTime_supervise runner program now limit answers).remarks_run punctual
  rw [remarks_of_classify whole.ended] at shape
  have journal : (runner.supervise program now limit answers).journal all = plain lines ++ _ :=
    shape
  have accounts : Accounts _ _ ((runner.supervise program now limit answers).run all) :=
    accounts_run all
  have same : told ((runner.supervise program now limit answers).journal all) = lines := by
    rw [journal, told_append, told_plain, told_report, List.append_nil]
  refine ⟨lines, accounts.program, ?_, ?_, fun channel => ?_⟩
  · rw [log_run, journal]
    exact Array.toList_appendList.trans (List.nil_append _)
  · rw [accounts.sink, same]
    rfl
  · rw [accounts.given, same]
    cases channel <;> rfl

theorem reported_settle (live : Bool) (program : String)
    (timely : ∀ move ∈ moves, move.IsTimely (now + limit)) (done : Done (heard moves) status)
    (ends : PipesEnd (heard moves)) :
    Reported runner.cap program status (fun channel => written channel (heard moves)) live
      (((runner.reporting live).supervise program now limit answers).run moves).settle := by
  have whole := readWhole_settle (runner.reporting live) now limit answers program timely done ends
  obtain ⟨lines, source⟩ :=
    exists_loggedFrom_settle (runner.reporting live) now limit answers program timely done ends
  have out := whole.stored .out
  have err := whole.stored .err
  simp only [drain] at out err
  constructor
  case outcome => exact outcome?_eq_some_iff.mpr whole.ended
  case sink => exact whole.sink
  case infos =>
    refine (textsAt_append _ _ _).trans (congrArg ("Running command" :: ·) ?_)
    rw [source.log, logged_append, textsAt_append, infos_plain, textsAt_report, textsAt_captured,
      out, source.sink]
    cases live with
    | true => simp [Runner.reporting, SinkLine.ofLine]
    | false => simp [Runner.reporting]
  case warns =>
    refine (textsAt_append _ _ _).trans ((List.nil_append _).trans ?_)
    rw [source.log, logged_append, textsAt_append, warns_plain, textsAt_report, textsAt_captured,
      err, source.named, countP_eq_add, ← source.given, ← source.given, whole.given,
      whole.given, countP_truncated, countP_truncated]
    cases live with
    | true => simp [Runner.reporting]
    | false => simp [Runner.reporting]

/-- What two ways to report a command line have in common, and what each of them logs. -/
structure ReportedAlike (cap : Nat) (program : String) (status : ExitStatus)
    (streams : Channel → Bytes) (schedule : Bool → List Move)
    (attempt : Bool → Except Failure Supervision) : Prop where
  /-- A command line that is not started fails in the same way. -/
  failure : ∀ failure, attempt true = .error failure ↔ attempt false = .error failure
  /-- Whatever happens, in time or not, two logs of one journal are all that is different. -/
  moment : ∀ loud silent, attempt true = .ok loud → attempt false = .ok silent → ∀ moves,
    silent.run moves = (loud.run moves).logging false (silent.run moves).log ∧
      ∃ entries, (loud.run moves).log.toList = logged true entries ∧
        (silent.run moves).log.toList = logged false entries
  /-- A process that ends in time may be seen to do so in any order of events. -/
  reported : ∀ live start, attempt live = .ok start →
    Reported cap program status streams live (start.run (schedule live)).settle

theorem run_supervise (live : Bool) (program : String) (moves : List Move) :
    ((runner.reporting live).supervise program now limit answers).run moves =
      ((runner.supervise program now limit answers).run moves).logging live
        (logged live ((runner.supervise program now limit answers).journal moves)).toArray := by
  have adds := adds_run (runner.supervise program now limit answers) moves live #[]
  refine adds.trans (congrArg (logging live · _) ?_)
  exact Array.ext' (Array.toList_appendList.trans (List.nil_append _))

/--
Line by line or in a summary, a command line has one outcome and its sink is given the
same lines.  Of a process that ends in time each line is one message, or all lines of a
stream are one message if there are any, beside one warning for each line that was cut.
-/
theorem reportedAlike_start (probe : String → PathKind) (argv : List String)
    (spawned : Except String Answers) {schedule : Bool → List Move} {streams : Channel → Bytes}
    (timely : ∀ live, ∀ move ∈ schedule live, move.IsTimely (now + limit))
    (done : ∀ live, Done (heard (schedule live)) status)
    (ends : ∀ live, PipesEnd (heard (schedule live)))
    (wrote : ∀ live channel, written channel (heard (schedule live)) = streams channel) :
    ReportedAlike runner.cap (argv.headD "") status streams schedule fun live =>
      (runner.reporting live).start now limit argv ((runner.reporting live).check probe argv)
        spawned := by
  constructor
  case failure =>
    intro failure
    have verdict (live : Bool) :
        (runner.reporting live).check probe argv = runner.check probe argv := rfl
    simp only [verdict]
    cases runner.check probe argv with
    | error refusal => exact Iff.rfl
    | ok _ =>
        cases spawned with
        | error cause => exact Iff.rfl
        | ok _ =>
            by_cases told : (now + limit).IsInstant
            · simp [Runner.start, told]
            · simp [Runner.start, told]
  case moment =>
    intro loud silent first second moves
    obtain ⟨-, answers, told, rfl⟩ := Runner.exists_supervise_of_start first
    obtain ⟨-, _, again, rfl⟩ := Runner.exists_supervise_of_start second
    cases told.symm.trans again
    rw [run_supervise, run_supervise]
    exact ⟨rfl, _, rfl, rfl⟩
  case reported =>
    intro live start started
    obtain ⟨-, answers, -, rfl⟩ := Runner.exists_supervise_of_start started
    rw [← funext (wrote live)]
    exact reported_settle runner now limit answers live _ (timely live) (done live) (ends live)

end

/-- The writes of `twoStreams`, stream by stream and in one piece each. -/
def oneByOne : List Move :=
  [.hears (.wrote .err [98, 195, 169, 10, 10]), .hears (.closed .err),
    .hears (.wrote .out [97, 13, 10, 99, 99]), .hears (.closed .out),
    .hears (.exited (.exited 1))]

/-- Two orders in which one process can be seen to end in time. -/
def twoOrders (live : Bool) : List Move :=
  if live then twoStreams else oneByOne

theorem reportedAlike_start_twoOrders :
    (∀ live, ∀ move ∈ twoOrders live, move.IsTimely (0 + 10)) ∧
      (∀ live, Done (heard (twoOrders live)) (.exited 1)) ∧
      (∀ live, PipesEnd (heard (twoOrders live))) ∧
      (∀ live channel, written channel (heard (twoOrders live)) =
        written channel (heard oneByOne)) ∧
      Runner.check { cap := 3 } (fun _ => .missing) ["gs"] = .ok () ∧
      ReportedAlike 3 "gs" (.exited 1) (fun channel => written channel (heard oneByOne)) twoOrders
        fun live => (Runner.reporting live { cap := 3 }).start 0 10 ["gs"]
          ((Runner.reporting live { cap := 3 }).check (fun _ => .missing) ["gs"]) (.ok {}) := by
  have timely : ∀ live, ∀ move ∈ twoOrders live, move.IsTimely (0 + 10) := by
    intro live
    cases live <;> simp [twoOrders, twoStreams, oneByOne, Move.IsTimely, ProcessEvent.Sound]
  have done : ∀ live, Done (heard (twoOrders live)) (.exited 1) := by
    intro live
    have closed (channel : Channel) : .closed channel ∈ heard (twoOrders live) := by
      cases live <;> cases channel <;> simp [twoOrders, heard, twoStreams, oneByOne]
    cases live <;> exact ⟨rfl, closed⟩
  have ends : ∀ live, PipesEnd (heard (twoOrders live)) := by
    intro live
    cases live <;> simp [twoOrders, PipesEnd, heard, twoStreams, oneByOne]
  have wrote : ∀ live channel, written channel (heard (twoOrders live)) =
      written channel (heard oneByOne) := by
    intro live channel
    cases live <;> cases channel <;> rfl
  have accepted : Runner.check { cap := 3 } (fun _ => .missing) ["gs"] = .ok () := by decide
  have alike := reportedAlike_start { cap := 3 } 0 10 (fun _ => .missing) ["gs"] (.ok {}) timely
    done ends wrote
  exact ⟨timely, done, ends, wrote, accepted, alike⟩

end Supervision

end Turnstile
