import Turnstile.Proofs.Child.Moves
import Turnstile.Proofs.Output.Bounds
import Turnstile.Proofs.Output.Capture
import Turnstile.Runner

/-!
# Captured output at every moment

A process writes two streams, and two drains capture their lines while the
process exits, its time runs out, the drains are told to stop, and the caller
looks at what is stored.  At every moment of every run, what is stored of a stream
is a prefix of what the sink was given of it, which is a prefix of its lines, and
the sink is ahead by one line at most.
-/

namespace Turnstile

open Output (Channel CutTo Drain Line SinkLine onChannel)
open Text (Bytes)

/-! ## Streams -/

/-- What is written to a pipe in some events. -/
def written (channel : Channel) (events : List ProcessEvent) : Bytes :=
  events.flatMap fun
    | .wrote pipe bytes => if pipe = channel then bytes else []
    | _ => []

@[simp] theorem written_append (channel : Channel) (events more : List ProcessEvent) :
    written channel (events ++ more) = written channel events ++ written channel more :=
  List.flatMap_append

/-- Nothing is written to a pipe after its end. -/
def PipesEnd (events : List ProcessEvent) : Prop :=
  events.Pairwise fun earlier later =>
    ∀ channel bytes, earlier = .closed channel → later ≠ .wrote channel bytes

/-- What is written to a pipe that has ended. -/
theorem PipesEnd.written_eq_nil {past more : List ProcessEvent} (ends : PipesEnd (past ++ more))
    {channel : Channel} (closed : .closed channel ∈ past) : written channel more = [] := by
  obtain ⟨_, _, apart⟩ := List.pairwise_append.mp ends
  rw [written, List.flatMap_eq_nil_iff]
  intro event member
  have silent := apart _ closed event member channel
  cases event with
  | wrote pipe bytes =>
      have other : pipe ≠ channel := by
        rintro rfl
        exact silent bytes rfl rfl
      exact if_neg other
  | _ => rfl

namespace Output

theorem onChannel_append (channel : Channel) (lines more : List SinkLine) :
    onChannel channel (lines ++ more) = onChannel channel lines ++ onChannel channel more :=
  List.filter_append ..

theorem onChannel_ofLine_self (program : String) (channel : Channel) (lines : List Line) :
    onChannel channel (lines.map (SinkLine.ofLine program channel)) =
      lines.map (SinkLine.ofLine program channel) := by
  simp [onChannel, SinkLine.ofLine, List.filter_eq_self]

theorem onChannel_ofLine_of_ne (program : String) {channel other : Channel}
    (different : other ≠ channel) (lines : List Line) :
    onChannel other (lines.map (SinkLine.ofLine program channel)) = [] := by
  simp [onChannel, SinkLine.ofLine, List.filter_eq_nil_iff, different.symm]

end Output

namespace Supervision

/-- A drain has captured what was written to its pipe, and has given it to the sink. -/
structure Follows (cap : Nat) (program : String) (past : List ProcessEvent) (channel : Channel)
    (sink : List SinkLine) (drain : Drain) : Prop where
  captures : drain.Captures cap (written channel past)
  ended : drain.ended = true → .closed channel ∈ past
  sink : onChannel channel sink = drain.given.toList.map (SinkLine.ofLine program channel)

/-- What a supervision has captured, of a process with a past in which it wrote to its pipes. -/
structure Captures (cap : Nat) (program : String) (past : List ProcessEvent)
    (supervision : Supervision) : Prop where
  program_eq : supervision.program = program
  follows : ∀ channel,
    Follows cap program past channel supervision.sink.toList (supervision.drain channel)
  outcome : ∀ outcome, supervision.phase = .over outcome → supervision.Tells outcome

variable {cap : Nat} {program : String} {past : List ProcessEvent} {channel : Channel}
  {sink : List SinkLine} {drain : Drain} {supervision later : Supervision}

/-! ## One drain -/

namespace Follows

theorem abort (follows : Follows cap program past channel sink drain) :
    Follows cap program past channel sink drain.abort where
  captures := follows.captures.abort
  ended ended := follows.ended (Drain.ended_abort drain ▸ ended)
  sink := by rw [(Drain.told_abort drain).given, follows.sink]

/-- An event that writes nothing to a pipe adds nothing to its stream. -/
theorem hear (follows : Follows cap program past channel sink drain) {event : ProcessEvent}
    (silent : written channel [event] = []) :
    Follows cap program (past ++ [event]) channel sink drain where
  captures := by
    rw [written_append, silent, List.append_nil]
    exact follows.captures
  ended ended := List.mem_append_left _ (follows.ended ended)
  sink := follows.sink

theorem feed (follows : Follows cap program past channel sink drain) {bytes : Bytes}
    (ends : PipesEnd (past ++ [.wrote channel bytes])) :
    Follows cap program (past ++ [.wrote channel bytes]) channel sink (drain.feed bytes) where
  captures := by
    have wrote : written channel [.wrote channel bytes] = bytes := by simp [written]
    rw [written_append]
    refine wrote.symm ▸ follows.captures.feed fun ended => ?_
    rw [← wrote]
    exact ends.written_eq_nil (follows.ended ended)
  ended ended := by
    rw [Drain.ended_feed] at ended
    exact List.mem_append_left _ (follows.ended ended)
  sink := by rw [(Drain.told_feed drain bytes).given, follows.sink]

theorem close (follows : Follows cap program past channel sink drain) :
    Follows cap program (past ++ [.closed channel]) channel sink drain.close where
  captures := (follows.hear rfl).captures.close
  ended _ := by simp
  sink := follows.sink

theorem lose (follows : Follows cap program past channel sink drain) :
    Follows cap program (past ++ [.lost channel]) channel sink drain.lose where
  captures := (follows.hear rfl).captures.lose
  ended ended := (follows.hear rfl).ended (Drain.ended_lose drain ▸ ended)
  sink := by rw [(Drain.told_lose drain).given, follows.sink]

end Follows

/-- The lines that a drain gives away in one step reach the sink. -/
theorem sink_drainStep {next : Drain}
    (stepped : (supervision.drain channel).step? = some next) :
    ∃ new : List Line, next.given.toList = (supervision.drain channel).given.toList ++ new ∧
      (supervision.drainStep channel).sink.toList =
        supervision.sink.toList ++ new.map (SinkLine.ofLine supervision.program channel) := by
  obtain ⟨new, given⟩ := Drain.given_of_step? stepped
  refine ⟨new, given, ?_⟩
  simp [Supervision.drainStep, stepped, given, ← Array.length_toList]

/-! ## Both drains -/

theorem captures_supervise (runner : Runner) (program : String) (now limit : Time)
    (answers : Answers) :
    Captures runner.cap program [] (runner.supervise program now limit answers) where
  program_eq := rfl
  follows channel := by cases channel <;> exact ⟨.start runner.cap, nofun, rfl⟩
  outcome := nofun

namespace Captures

theorem of_leavesDrains (captures : Captures cap program past supervision)
    (leaves : LeavesDrains supervision later) : Captures cap program past later where
  program_eq := (congrArg Terms.program leaves.terms).trans captures.program_eq
  follows channel := by
    rw [leaves.sink]
    rcases leaves.drain channel with same | stopped
    · exact same ▸ captures.follows channel
    · exact stopped ▸ (captures.follows channel).abort
  outcome outcome finished := by
    rcases leaves.outcome outcome finished with finished | tells
    · exact (captures.outcome outcome finished).of_told leaves.told
    · exact tells

/-- Events that write nothing add nothing to the streams. -/
theorem hear (captures : Captures cap program past supervision) {event : ProcessEvent}
    (silent : ∀ channel, written channel [event] = []) :
    Captures cap program (past ++ [event]) supervision :=
  ⟨captures.program_eq, fun channel => (captures.follows channel).hear (silent channel),
    captures.outcome⟩

/-- A drain is told of an event on its pipe. -/
theorem setDrain (captures : Captures cap program past supervision) {event : ProcessEvent}
    (told : (supervision.drain channel).Told drain)
    (own : Follows cap program (past ++ [event]) channel supervision.sink.toList drain)
    (silent : ∀ other, other ≠ channel → written other [event] = []) :
    Captures cap program (past ++ [event]) (supervision.setDrain channel drain) := by
  have sink : (supervision.setDrain channel drain).sink = supervision.sink := by
    cases channel <;> rfl
  constructor
  case program_eq =>
    exact (congrArg Terms.program (terms_setDrain _ _ _)).trans captures.program_eq
  case follows =>
    rw [sink]
    exact forall_drain_setDrain _ (Follows cap program (past ++ [event]) · supervision.sink.toList)
      own fun other different => (captures.follows other).hear (silent other different)
  case outcome =>
    intro outcome finished
    rw [phase_setDrain] at finished
    exact (captures.outcome outcome finished).of_told <|
      forall_drain_setDrain _ (fun other => (supervision.drain other).Told) told fun _ _ => .refl _

theorem drainStep (captures : Captures cap program past supervision) (channel : Channel) :
    Captures cap program past (supervision.drainStep channel) := by
  cases stepped : (supervision.drain channel).step? with
  | none =>
      rw [Supervision.drainStep, stepped]
      exact captures
  | some next =>
      obtain ⟨new, given, sink⟩ := sink_drainStep stepped
      constructor
      case program_eq =>
        exact (congrArg Terms.program (terms_drainStep _ _)).trans captures.program_eq
      case follows =>
        intro other
        have follows := captures.follows other
        rw [sink, captures.program_eq]
        by_cases same : other = channel
        · subst same
          rw [drain_drainStep_self, stepped, Option.getD_some]
          refine ⟨follows.captures.step? stepped, fun ended => follows.ended ?_, ?_⟩
          · rwa [(Drain.ended_of_step? stepped).1] at ended
          · rw [Output.onChannel_append, follows.sink, given, Output.onChannel_ofLine_self,
              List.map_append]
        · rw [drain_drainStep_of_ne _ same]
          refine ⟨follows.captures, follows.ended, ?_⟩
          rw [Output.onChannel_append, follows.sink, Output.onChannel_ofLine_of_ne _ same,
            List.append_nil]
      case outcome =>
        intro outcome finished messages told
        rw [phase_drainStep] at finished
        have stopped := (captures.outcome outcome finished messages told).2 channel
        rw [Drain.isOver_of_step? stepped] at stopped
        cases stopped

theorem apply (captures : Captures cap program past supervision) {event : ProcessEvent}
    (ends : PipesEnd (past ++ [event])) :
    Captures cap program (past ++ [event]) (supervision.apply event) := by
  cases event with
  | wrote channel bytes =>
      refine captures.setDrain (Drain.told_feed _ _) ((captures.follows channel).feed ends) ?_
      intro other different
      simp [written, different.symm]
  | closed channel =>
      exact captures.setDrain (Drain.told_close _) (captures.follows channel).close fun _ _ => rfl
  | drained channel => exact (captures.drainStep channel).hear fun _ => rfl
  | lost channel =>
      exact captures.setDrain (Drain.told_lose _) (captures.follows channel).lose fun _ _ => rfl
  | exited status =>
      exact (captures.of_leavesDrains (leavesDrains_exit _ status)).hear fun _ => rfl
  | waitFailed cause =>
      exact (captures.of_leavesDrains (leavesDrains_failWait _ cause)).hear fun _ => rfl

theorem move (captures : Captures cap program past supervision) {move : Move}
    (ends : PipesEnd (past ++ heard [move])) :
    Captures cap program (past ++ heard [move]) (supervision.move move) := by
  cases move with
  | hears event => exact (captures.apply ends).of_leavesDrains (leavesDrains_conclude _)
  | waits now =>
      exact (List.append_nil past).symm ▸ captures.of_leavesDrains (leavesDrains_expire _ now)
  | stops channel =>
      exact (List.append_nil past).symm ▸ captures.of_leavesDrains (leavesDrains_stop _ channel)
  | leaves =>
      exact (List.append_nil past).symm ▸ captures.of_leavesDrains (leavesDrains_abandon _)

theorem run (captures : Captures cap program past supervision) {moves : List Move}
    (ends : PipesEnd (past ++ heard moves)) :
    Captures cap program (past ++ heard moves) (supervision.run moves) := by
  induction moves generalizing past supervision with
  | nil => exact (List.append_nil past).symm ▸ captures
  | cons first moves ih =>
      rw [heard_cons, ← List.append_assoc] at ends ⊢
      have sooner : PipesEnd (past ++ heard [first]) := (List.pairwise_append.mp ends).1
      exact ih (captures.move sooner) ends

theorem settle (captures : Captures cap program past supervision) :
    Captures cap program past supervision.settle :=
  settle_keeps (Captures cap program past)
    (fun _ channel captures =>
      (captures.drainStep channel).of_leavesDrains (leavesDrains_conclude _))
    captures

end Captures

/-! ## Every moment of a run -/

/-- The lines that a process writes to a pipe in some events. -/
def linesWritten (cap : Nat) (events : List ProcessEvent) (channel : Channel) : List String :=
  Output.lines cap (written channel events)

/-- A drain that has read all of its stream has given all of its lines to the sink. -/
theorem Follows.sink_of_finished (follows : Follows cap program past channel sink drain)
    (finished : drain.status = .finished) :
    onChannel channel sink = (linesWritten cap past channel).map (SinkLine.mk program channel) := by
  rw [follows.sink, linesWritten, ← (follows.captures.lines_of_finished finished).1, List.map_map]
  rfl

/-- A text of lines from the front of standard output, then lines from the front of standard error. -/
def JoinsPrefixes (streams : Channel → List String) (text : String) : Prop :=
  ∃ out err, out <+: streams .out ∧ err <+: streams .err ∧ text = "\n".intercalate (out ++ err)

/--
What is stored and what the sink was given is in order, of a process that writes
`streams`, and a time-out tells what is stored.
-/
structure InOrder (program : String) (streams : Channel → List String)
    (supervision : Supervision) : Prop where
  stored : ∀ channel, (supervision.drain channel).stored.toList <+:
    (onChannel channel supervision.sink.toList).map SinkLine.text
  ahead : ∀ channel, (onChannel channel supervision.sink.toList).length ≤
    (supervision.drain channel).stored.size + 1
  given : ∀ channel, onChannel channel supervision.sink.toList <+:
    (streams channel).map (SinkLine.mk program channel)
  told : ∀ name time messages,
    supervision.outcome? = some (.error (.timeout name time messages)) →
      messages = supervision.messages

theorem Captures.inOrder (captures : Captures cap program past supervision)
    {rest : List ProcessEvent} (ends : PipesEnd (past ++ rest)) :
    InOrder program (linesWritten cap (past ++ rest)) supervision := by
  have sink (channel : Channel) : onChannel channel supervision.sink.toList =
      ((supervision.drain channel).given.toList.map Line.text).map
        (SinkLine.mk program channel) := by
    rw [(captures.follows channel).sink, List.map_map]
    rfl
  constructor
  case stored =>
    intro channel
    rw [sink, List.map_map]
    simpa [Function.comp_def] using (captures.follows channel).captures.stored_isPrefix
  case ahead =>
    intro channel
    rw [(captures.follows channel).sink, List.length_map, Array.length_toList]
    exact (captures.follows channel).captures.length_given_le
  case given =>
    intro channel
    rw [sink, linesWritten, written_append]
    refine ((captures.follows channel).captures.given_isPrefix fun ended => ?_).map _
    exact ends.written_eq_nil ((captures.follows channel).ended ended)
  case told =>
    intro name time messages found
    exact (captures.outcome _ (outcome?_eq_some_iff.mp found) messages rfl).1

/-- What the sink was given of a stream is from its front. -/
theorem InOrder.given_isPrefix {streams : Channel → List String}
    (inOrder : InOrder program streams supervision) (channel : Channel) :
    (onChannel channel supervision.sink.toList).map SinkLine.text <+: streams channel := by
  have given := (inOrder.given channel).map SinkLine.text
  rw [List.map_map] at given
  simpa [Function.comp_def] using given

/-- What is stored of a stream is from its front. -/
theorem InOrder.stored_isPrefix {streams : Channel → List String}
    (inOrder : InOrder program streams supervision) (channel : Channel) :
    (supervision.drain channel).stored.toList <+: streams channel :=
  (inOrder.stored channel).trans (inOrder.given_isPrefix channel)

theorem inOrder_of_isPrefix (runner : Runner) (program : String) (now limit : Time)
    (answers : Answers) {schedule past : List Move} (ends : PipesEnd (heard schedule))
    (begins : past <+: schedule) :
    InOrder program (linesWritten runner.cap (heard schedule))
      ((runner.supervise program now limit answers).run past) := by
  obtain ⟨rest, whole⟩ := begins
  rw [← whole, heard_append] at ends ⊢
  have start := captures_supervise runner program now limit answers
  exact (start.run (List.pairwise_append.mp ends).1).inOrder ends

/--
Whatever happens to a run and in whatever order, at every moment its output is
captured in order, and a time-out tells of lines from the front of each stream and
of nothing else; so does a reader who looks at the two buffers at two moments.
-/
theorem inOrder_run (runner : Runner) (program : String) (now limit : Time) (answers : Answers)
    {schedule : List Move} (ends : PipesEnd (heard schedule)) :
    (∀ past, past <+: schedule →
      InOrder program (linesWritten runner.cap (heard schedule))
        ((runner.supervise program now limit answers).run past)) ∧
    (∀ past, past <+: schedule → ∀ name time messages,
      ((runner.supervise program now limit answers).run past).outcome? =
          some (.error (.timeout name time messages)) →
        JoinsPrefixes (linesWritten runner.cap (heard schedule)) messages) ∧
    ∀ first second, first <+: schedule → second <+: schedule →
      JoinsPrefixes (linesWritten runner.cap (heard schedule))
        ("\n".intercalate
          (((runner.supervise program now limit answers).run first).out.stored.toList ++
            ((runner.supervise program now limit answers).run second).err.stored.toList)) := by
  have moment (past : List Move) (begins : past <+: schedule) :=
    inOrder_of_isPrefix runner program now limit answers ends begins
  have reads (first second : List Move) (one : first <+: schedule) (other : second <+: schedule) :=
    And.intro ((moment first one).stored_isPrefix .out) ((moment second other).stored_isPrefix .err)
  refine ⟨moment, fun past begins name time messages found => ?_, fun first second one other => ?_⟩
  · obtain ⟨out, err⟩ := reads past past begins begins
    exact ⟨_, _, out, err, (moment past begins).told name time messages found⟩
  · obtain ⟨out, err⟩ := reads first second one other
    exact ⟨_, _, out, err, rfl⟩

/-- A run whose time runs out while a line is on its way from the sink to the buffer. -/
def cutOffMoves : List Move :=
  [.hears (.wrote .out [111, 110, 101, 13, 10, 116]), .hears (.drained .out),
    .hears (.wrote .err [33]), .hears (.drained .out), .hears (.wrote .out [119, 111, 10]),
    .hears (.closed .out), .hears (.drained .out), .hears (.drained .out), .waits 11,
    .hears (.exited (.signalled 15)), .hears (.drained .out)]

theorem inOrder_run_cutOff :
    PipesEnd (heard cutOffMoves) ∧
      InOrder "tool" (linesWritten 2 (heard cutOffMoves))
        ((Runner.supervise { cap := 2 } "tool" 0 10).run cutOffMoves) := by
  have ends : PipesEnd (heard cutOffMoves) := by simp [PipesEnd, heard, cutOffMoves]
  exact ⟨ends, (inOrder_run { cap := 2 } "tool" 0 10 {} ends).1 cutOffMoves (List.prefix_refl _)⟩

/-! ## How long the lines are -/

/--
Whatever happens to a run and in whatever order, at every moment the lines that are
stored of a stream, and those that the sink was given of it, are cut to the limit.
-/
theorem cutTo_run (runner : Runner) (program : String) (now limit : Time) (answers : Answers)
    {schedule past : List Move} (ends : PipesEnd (heard schedule)) (begins : past <+: schedule)
    (channel : Channel) :
    CutTo runner.cap (written channel (heard schedule))
        (((runner.supervise program now limit answers).run past).drain channel).stored.toList ∧
      CutTo runner.cap (written channel (heard schedule))
        ((onChannel channel ((runner.supervise program now limit answers).run past).sink.toList).map
          SinkLine.text) := by
  have inOrder := inOrder_of_isPrefix runner program now limit answers ends begins
  exact ⟨Output.cutTo_of_isPrefix (inOrder.stored_isPrefix channel),
    Output.cutTo_of_isPrefix (inOrder.given_isPrefix channel)⟩

/-- A character that does not fit as a whole, and a return that does not fit. -/
def wideLines : List Move :=
  [.hears (.wrote .out [97, 226, 130]), .hears (.drained .out), .hears (.wrote .out [172, 10, 97]),
    .hears (.drained .out), .hears (.drained .out), .hears (.wrote .out [98, 13, 10]),
    .hears (.drained .out), .hears (.drained .out), .hears (.drained .out)]

theorem cutTo_run_wideLines :
    PipesEnd (heard wideLines) ∧ wideLines <+: wideLines ∧
      CutTo 2 (written .out (heard wideLines))
        (((Runner.supervise { cap := 2 } "tool" 0 10).run wideLines).drain .out).stored.toList := by
  have ends : PipesEnd (heard wideLines) := by simp [PipesEnd, heard, wideLines]
  have all : wideLines <+: wideLines := List.prefix_refl _
  exact ⟨ends, all, (cutTo_run { cap := 2 } "tool" 0 10 {} ends all .out).1⟩

end Supervision

end Turnstile
