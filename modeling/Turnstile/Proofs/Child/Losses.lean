import Turnstile.Proofs.Child.Capture
import Turnstile.Proofs.Child.Transition

/-!
# Streams that are lost

Reading a pipe can fail, and so can the sink.  The drain then ends early and nothing
else becomes of it: an exit code that means success is told of all the same, with the
lines that were stored.  A completion therefore means that each pipe was read to its
end or was lost, and it comes with all lines only if none was lost.
-/

namespace Turnstile.Supervision

open Output (Channel Drain)
open Text (Bytes)

variable {cap : Nat} {program : String} {past : List ProcessEvent} {channel : Channel}
  {drain next : Drain} {supervision later : Supervision}

/-! ## How drains come to an end -/

/-- The run has ended without a completion. -/
def HasFailed (supervision : Supervision) : Prop :=
  ∃ failure, supervision.phase = .over (.error failure)

/-- Why a drain has not read its stream to the end: it was lost, or its run has failed. -/
structure Explained (past : List ProcessEvent) (supervision : Supervision) : Prop where
  lost : ∀ channel, (supervision.drain channel).status = .lost → .lost channel ∈ past
  aborted : ∀ channel, (supervision.drain channel).status = .aborted → supervision.HasFailed

theorem explained_supervise (runner : Runner) (program : String) (now limit : Time)
    (answers : Answers) :
    Explained [] (runner.supervise program now limit answers) := by
  constructor <;> intro channel stopped <;> cases channel <;> cases stopped

theorem HasFailed.hasEnded (failed : supervision.HasFailed) : supervision.HasEnded := by
  obtain ⟨failure, told⟩ := failed
  exact hasEnded_of_over told

/-- What becomes of a drain by an event: it goes on as it was, reads or has read all, or is lost. -/
def Fares (event : ProcessEvent) (channel : Channel) (drain later : Drain) : Prop :=
  later.status = drain.status ∨ later.IsIntact ∨ event = .lost channel ∧ later.status = .lost

namespace Explained

/-- The run goes on, and its drains may be told to stop. -/
theorem transition (explained : Explained past supervision)
    (transition : Transition supervision later) : Explained past later := by
  -- A run that goes on has not failed, so that none of its drains was told to stop.
  have of_same (going : ¬ supervision.HasEnded)
      (same : ∀ channel, later.drain channel = supervision.drain channel) :
      Explained past later := by
    refine ⟨fun channel lost => explained.lost channel (same channel ▸ lost), ?_⟩
    intro channel aborted
    exact absurd (explained.aborted channel (same channel ▸ aborted)).hasEnded going
  cases transition with
  | stays => exact explained
  | goesOn going _ same => exact of_same going same
  | concludes going _ _ same => exact of_same going same
  | letsGo going _ same => exact of_same going same
  | cutsOff _ told stopped =>
      refine ⟨fun channel lost => explained.lost channel ?_, fun _ _ => ⟨_, told⟩⟩
      rw [stopped channel] at lost
      unfold Drain.abort at lost
      split at lost
      · cases lost
      · exact lost

/-- The drains go on by themselves, or one of them is lost. -/
theorem of_drains (explained : Explained past supervision) {event : ProcessEvent}
    (phase : later.phase = supervision.phase)
    (drains : ∀ channel, Fares event channel (supervision.drain channel) (later.drain channel)) :
    Explained (past ++ [event]) later := by
  constructor
  case lost =>
    intro channel lost
    rw [List.mem_append, List.mem_singleton]
    rcases drains channel with same | intact | ⟨known, _⟩
    · exact .inl (explained.lost channel (same.symm.trans lost))
    · rcases intact with reading | finished
      · cases reading.symm.trans lost
      · cases finished.symm.trans lost
    · exact .inr known.symm
  case aborted =>
    intro channel aborted
    rw [HasFailed, phase]
    rcases drains channel with same | intact | ⟨_, lost⟩
    · exact explained.aborted channel (same.symm.trans aborted)
    · rcases intact with reading | finished
      · cases reading.symm.trans aborted
      · cases finished.symm.trans aborted
    · cases lost.symm.trans aborted

theorem setDrain (explained : Explained past supervision) {event : ProcessEvent}
    (own : Fares event channel (supervision.drain channel) drain) :
    Explained (past ++ [event]) (supervision.setDrain channel drain) :=
  explained.of_drains (phase_setDrain ..) <|
    forall_drain_setDrain _ (fun other => Fares event other (supervision.drain other)) own
      fun _ _ => .inl rfl

theorem apply (explained : Explained past supervision) (event : ProcessEvent) :
    Explained (past ++ [event]) (supervision.apply event) := by
  have hears {later : Supervision} (transition : Transition supervision later) :
      Explained (past ++ [event]) later :=
    (explained.transition transition).of_drains rfl fun _ => .inl rfl
  cases event with
  | wrote channel bytes =>
      refine explained.setDrain (.inl ?_)
      unfold Drain.feed
      split <;> rfl
  | closed channel => exact explained.setDrain (.inl rfl)
  | drained channel =>
      refine explained.of_drains (phase_drainStep ..) ?_
      refine forall_drain_drainStep _
        (fun other => Fares (.drained channel) other (supervision.drain other))
        (fun next stepped => ?_) fun _ => .inl rfl
      exact .inr (.inl (Drain.isIntact_of_step? stepped))
  | lost channel =>
      refine explained.setDrain ?_
      unfold Drain.lose
      split
      · exact .inr (.inr ⟨rfl, rfl⟩)
      · exact .inl rfl
  | exited status => exact hears (transition_exit _ status)
  | waitFailed cause => exact hears (transition_failWait _ cause)

theorem move (explained : Explained past supervision) {move : Move}
    (undisturbed : ∀ channel, move ≠ .stops channel) :
    Explained (past ++ heard [move]) (supervision.move move) := by
  cases move with
  | hears event => exact (explained.apply event).transition (transition_conclude _)
  | waits now => exact (List.append_nil past).symm ▸ explained.transition (transition_expire _ now)
  | stops channel => exact absurd rfl (undisturbed channel)
  | leaves => exact (List.append_nil past).symm ▸ explained.transition (transition_abandon _)

theorem run (explained : Explained past supervision) {moves : List Move}
    (undisturbed : ∀ channel, .stops channel ∉ moves) :
    Explained (past ++ heard moves) (supervision.run moves) := by
  induction moves generalizing past supervision with
  | nil => exact (List.append_nil past).symm ▸ explained
  | cons first moves ih =>
      have apart (channel : Channel) := not_or.mp (mt List.mem_cons.mpr (undisturbed channel))
      have rest := ih (explained.move fun channel => Ne.symm (apart channel).1) fun channel =>
        (apart channel).2
      rwa [List.append_assoc, ← heard_append] at rest

end Explained

/-! ## What a completion tells -/

/-- What has been stored of a stream when its drain has come to an end. -/
inductive Stored (cap : Nat) (past : List ProcessEvent) (channel : Channel) (drain : Drain) :
    Prop where
  | whole (finished : drain.status = .finished)
      (all : drain.stored.toList = linesWritten cap past channel)
  | part (lost : drain.status = .lost) (heard : .lost channel ∈ past)
      (some : drain.stored.toList <+: linesWritten cap past channel)

/-- What has been recorded of the streams of a run that has ended with a completion. -/
structure Recorded (cap : Nat) (past : List ProcessEvent) (completion : Completion)
    (supervision : Supervision) : Prop where
  /-- Each pipe was read to its end or was lost. -/
  streams : ∀ channel, Stored cap past channel (supervision.drain channel)
  /-- What was stored is told, however much it is. -/
  messages : completion.messages = supervision.messages
  /-- If nothing was lost, all lines are told. -/
  complete : (∀ channel, .lost channel ∉ past) → completion.messages =
    "\n".intercalate (linesWritten cap past .out ++ linesWritten cap past .err)

/--
A run in which no one else stops the drains ends with a completion only when each of
them has read all or was lost.
-/
theorem recorded_run (runner : Runner) (program : String) (now limit : Time) (answers : Answers)
    {moves : List Move} (undisturbed : ∀ channel, .stops channel ∉ moves)
    (ends : PipesEnd (heard moves)) {completion : Completion}
    (told : ((runner.supervise program now limit answers).run moves).outcome? =
      some (.ok completion)) :
    Recorded runner.cap (heard moves) completion
      ((runner.supervise program now limit answers).run moves) := by
  have explained := (explained_supervise runner program now limit answers).run undisturbed
  have captures := (captures_supervise runner program now limit answers).run ends
  rw [List.nil_append] at explained captures
  generalize (runner.supervise program now limit answers).run moves = supervision
    at told explained captures ⊢
  have phase := outcome?_eq_some_iff.mp told
  obtain ⟨messages, quiet⟩ := captures.outcome _ phase completion.messages rfl
  have streams (channel : Channel) :
      Stored runner.cap (heard moves) channel (supervision.drain channel) := by
    have captured := (captures.follows channel).captures
    cases status : (supervision.drain channel).status with
    | reading =>
        have stopped := quiet channel
        simp [Drain.isOver, status] at stopped
    | finished => exact .whole status (captured.lines_of_finished status).2
    | lost =>
        have given : (supervision.drain channel).given.toList.map Output.Line.text <+:
            Output.lines runner.cap (written channel (heard moves) ++ []) :=
          captured.given_isPrefix fun _ => rfl
        rw [List.append_nil] at given
        exact .part status (explained.lost channel status) (captured.stored_isPrefix.trans given)
    | aborted =>
        obtain ⟨failure, failed⟩ := explained.aborted channel status
        cases phase.symm.trans failed
  refine ⟨streams, messages, fun whole => ?_⟩
  have all (channel : Channel) : (supervision.drain channel).stored.toList =
      linesWritten runner.cap (heard moves) channel := by
    cases streams channel with
    | whole _ all => exact all
    | part _ heard => exact absurd heard (whole channel)
  rw [messages, Supervision.messages, lines, ← all .out, ← all .err]
  rfl

/-- Standard error is lost after its first line. -/
def lostMoves : List Move :=
  [.hears (.wrote .err [97, 10, 98, 10]), .hears (.drained .err), .hears (.drained .err),
    .hears (.lost .err), .hears (.exited (.exited 0)), .hears (.closed .out),
    .hears (.drained .out)]

theorem recorded_run_lost : (∀ channel, .stops channel ∉ lostMoves) ∧ PipesEnd (heard lostMoves) ∧
    ∃ completion, ((Runner.supervise {} "tool" 0 10).run lostMoves).outcome? =
        some (.ok completion) ∧
      Recorded 5000000 (heard lostMoves) completion
        ((Runner.supervise {} "tool" 0 10).run lostMoves) := by
  have undisturbed : ∀ channel, .stops channel ∉ lostMoves := by simp [lostMoves]
  have ends : PipesEnd (heard lostMoves) := by simp [PipesEnd, heard, lostMoves]
  have told : ((Runner.supervise {} "tool" 0 10).run lostMoves).outcome? =
    some (.ok ⟨0, ((Runner.supervise {} "tool" 0 10).run lostMoves).messages⟩) := rfl
  exact ⟨undisturbed, ends, _, told, recorded_run {} "tool" 0 10 {} undisturbed ends told⟩

/-! ## What a loss changes -/

theorem phase_conclude_of_quiet {status : ExitStatus}
    (draining : supervision.phase = .draining status) (quiet : supervision.IsQuiet) :
    supervision.conclude.phase =
      .over (classify supervision.program status.code supervision.messages) := by
  have out := quiet .out
  have err := quiet .err
  simp only [drain] at out err
  simp [conclude, draining, out, err]

/-- The last stream of a process that has exited ends its run when it is lost, and what is told
is decided by the exit code alone. -/
theorem outcome?_move_lost {status : ExitStatus} (draining : supervision.phase = .draining status)
    (others : ∀ other, other ≠ channel → (supervision.drain other).isOver = true) :
    (supervision.move (.hears (.lost channel))).outcome? =
      some (classify supervision.program status.code supervision.messages) := by
  change (supervision.setDrain channel (supervision.drain channel).lose).conclude.outcome? = _
  have quiet : (supervision.setDrain channel (supervision.drain channel).lose).IsQuiet :=
    forall_drain_setDrain _ (fun _ drain => drain.isOver = true) (Drain.isOver_lose _) others
  have phase := (phase_setDrain supervision channel (supervision.drain channel).lose).trans draining
  have program := congrArg Terms.program
    (terms_setDrain supervision channel (supervision.drain channel).lose)
  have messages : (supervision.setDrain channel (supervision.drain channel).lose).messages =
      supervision.messages :=
    messages_eq_of_stored <| forall_drain_setDrain _
      (fun other drain => drain.stored = (supervision.drain other).stored)
      (Drain.told_lose _).stored fun _ _ => rfl
  rw [outcome?_eq_some_iff, phase_conclude_of_quiet phase quiet, messages]
  exact congrArg (fun name => Phase.over (classify name status.code supervision.messages)) program

end Turnstile.Supervision
