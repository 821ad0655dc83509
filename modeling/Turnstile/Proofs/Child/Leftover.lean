import Turnstile.Proofs.Child.Capture
import Turnstile.Proofs.Child.Transition

/-!
# Drains left behind

A run that ends has read its pipes to their end, or tells its drains to stop.  Two
endings do neither: the process cannot be waited for, and the caller gives up.  What
still reads then reads on, and the sink is given lines of a run that is no more.
-/

namespace Turnstile.Supervision

open Output (Channel Drain SinkLine onChannel)

/-- A move that lets the drain of a channel read on. -/
def Move.Spares (channel : Channel) : Move → Prop
  | .hears event => event ≠ .lost channel
  | .stops other => other ≠ channel
  | _ => True

variable {before after supervision later : Supervision} {channel : Channel}

/-! ## Drains that are over -/

namespace IsQuiet

theorem leavesDrains (quiet : supervision.IsQuiet) (leaves : LeavesDrains supervision later) :
    later.sink = supervision.sink ∧ later.IsQuiet :=
  ⟨leaves.sink, fun channel => (leaves.told channel).isOver (quiet channel)⟩

theorem setDrain (quiet : supervision.IsQuiet) {drain : Drain}
    (told : (supervision.drain channel).Told drain) :
    (supervision.setDrain channel drain).sink = supervision.sink ∧
      (supervision.setDrain channel drain).IsQuiet := by
  refine ⟨by cases channel <;> rfl, ?_⟩
  exact forall_drain_setDrain _ (fun _ drain => drain.isOver = true) (told.isOver (quiet channel))
    fun other _ => quiet other

theorem apply (quiet : supervision.IsQuiet) (event : ProcessEvent) :
    (supervision.apply event).sink = supervision.sink ∧ (supervision.apply event).IsQuiet := by
  cases event with
  | wrote channel bytes => exact quiet.setDrain (Drain.told_feed _ bytes)
  | closed channel => exact quiet.setDrain (Drain.told_close _)
  | drained channel =>
      have rests := Drain.step?_eq_none_of_isOver (quiet channel)
      have same : supervision.apply (.drained channel) = supervision := by
        simp only [Supervision.apply, drainStep, rests]
      rw [same]
      exact ⟨rfl, quiet⟩
  | lost channel => exact quiet.setDrain (Drain.told_lose _)
  | exited status => exact quiet.leavesDrains (leavesDrains_exit _ status)
  | waitFailed cause => exact quiet.leavesDrains (leavesDrains_failWait _ cause)

/-- Drains that are over stay over and give nothing to the sink. -/
theorem move (quiet : supervision.IsQuiet) (move : Move) :
    (supervision.move move).sink = supervision.sink ∧ (supervision.move move).IsQuiet := by
  cases move with
  | hears event =>
      obtain ⟨sink, applied⟩ := quiet.apply event
      obtain ⟨same, concluded⟩ := applied.leavesDrains (leavesDrains_conclude _)
      exact ⟨same.trans sink, concluded⟩
  | waits now => exact quiet.leavesDrains (leavesDrains_expire _ now)
  | stops channel => exact quiet.leavesDrains (leavesDrains_stop _ channel)
  | leaves => exact quiet.leavesDrains (leavesDrains_abandon _)

theorem run (quiet : supervision.IsQuiet) (moves : List Move) :
    (supervision.run moves).sink = supervision.sink := by
  induction moves generalizing supervision with
  | nil => rfl
  | cons first moves ih =>
      obtain ⟨sink, moved⟩ := quiet.move first
      exact (ih moved).trans sink

end IsQuiet

/-! ## The end of a run -/

/-- How a run ends, and what that does to its drains. -/
inductive Ending (before after : Supervision) : Prop where
  | quietly (keeps : ¬ after.LetsDrainsGo) (quiet : after.IsQuiet)
  | letsGo (lets : after.LetsDrainsGo)
      (same : ∀ channel, after.drain channel = before.drain channel)

theorem not_letsDrainsGo_classify {program : String} {code : Int} {messages : String}
    (told : after.phase = .over (classify program code messages)) : ¬ after.LetsDrainsGo := by
  rw [LetsDrainsGo, told]
  unfold classify
  split <;> simp

theorem Ending.of_transition (transition : Transition before after)
    (going : ¬ before.HasEnded) (ended : after.HasEnded) : Ending before after := by
  cases transition with
  | stays => exact absurd ended going
  | goesOn _ goes => exact absurd ended goes
  | concludes _ quiet told same =>
      exact .quietly (not_letsDrainsGo_classify told) fun channel => same channel ▸ quiet channel
  | cutsOff _ told stopped =>
      refine .quietly (by simp [LetsDrainsGo, told]) fun channel => ?_
      exact stopped channel ▸ Drain.isOver_abort _
  | letsGo _ lets same => exact .letsGo lets same

/-- A run that ends because a drain has taken its last step ends quietly. -/
theorem Ending.of_conclude (going : ¬ supervision.HasEnded)
    (ended : supervision.conclude.HasEnded) : Ending before supervision.conclude := by
  have keeps : ¬ supervision.conclude.LetsDrainsGo := by
    unfold conclude
    split
    · split
      · exact not_letsDrainsGo_classify rfl
      · exact mt LetsDrainsGo.hasEnded going
    · exact mt LetsDrainsGo.hasEnded going
  cases of_transition (transition_conclude supervision) going ended with
  | quietly keeps quiet => exact .quietly keeps quiet
  | letsGo lets => exact absurd lets keeps

theorem hasEnded_of_phase_eq (phase : later.phase = supervision.phase)
    (ended : later.HasEnded) : supervision.HasEnded := by
  rwa [HasEnded, phase] at ended

/-- The move with which a run ends leaves its drains quiet, or to themselves. -/
theorem ending_move (going : ¬ supervision.HasEnded) {move : Move}
    (ended : (supervision.move move).HasEnded) : Ending supervision (supervision.move move) := by
  -- A drain that takes a step changes no phase, and what ends its run then is that both are over.
  have of_drain {later : Supervision} (phase : later.phase = supervision.phase)
      (ended : later.conclude.HasEnded) : Ending supervision later.conclude :=
    .of_conclude (mt (hasEnded_of_phase_eq phase) going) ended
  cases move with
  | hears event =>
      cases event with
      | wrote channel bytes => exact of_drain (phase_setDrain ..) ended
      | closed channel => exact of_drain (phase_setDrain ..) ended
      | drained channel => exact of_drain (phase_drainStep ..) ended
      | lost channel => exact of_drain (phase_setDrain ..) ended
      | exited status =>
          exact .of_transition ((transition_exit _ status).trans (transition_conclude _)) going
            ended
      | waitFailed cause =>
          exact .of_transition ((transition_failWait _ cause).trans (transition_conclude _)) going
            ended
  | waits now => exact .of_transition (transition_expire _ now) going ended
  | stops channel => exact absurd (hasEnded_of_phase_eq (phase_setDrain ..) ended) going
  | leaves => exact .of_transition (transition_abandon _) going ended

/-! ## A drain that is left behind -/

theorem ended_of_leavesDrains (leaves : LeavesDrains supervision later)
    (known : (supervision.drain channel).ended = true) :
    (later.drain channel).ended = true := by
  rcases leaves.drain channel with same | stopped
  · rwa [same]
  · rwa [stopped, Drain.ended_abort]

theorem ended_apply (event : ProcessEvent) (known : (supervision.drain channel).ended = true) :
    ((supervision.apply event).drain channel).ended = true := by
  have keeps {told : Channel} {drain : Drain}
      (own : (supervision.drain told).ended = true → drain.ended = true) :
      ((supervision.setDrain told drain).drain channel).ended = true :=
    forall_drain_setDrain _
      (fun other drain => (supervision.drain other).ended = true → drain.ended = true) own
      (fun _ _ => id) channel known
  cases event with
  | wrote told bytes => exact keeps fun ended => by rwa [Drain.ended_feed]
  | closed told => exact keeps fun _ => rfl
  | drained told =>
      refine forall_drain_drainStep _
        (fun other drain => (supervision.drain other).ended = true → drain.ended = true)
        (fun next stepped ended => ?_) (fun _ => id) channel known
      rwa [(Drain.ended_of_step? stepped).1]
  | lost told => exact keeps fun ended => by rwa [Drain.ended_lose]
  | exited status => exact ended_of_leavesDrains (leavesDrains_exit _ status) known
  | waitFailed cause => exact ended_of_leavesDrains (leavesDrains_failWait _ cause) known

/-- What a drain knows of the end of its pipe it does not forget. -/
theorem ended_move (move : Move) (known : (supervision.drain channel).ended = true) :
    ((supervision.move move).drain channel).ended = true := by
  cases move with
  | hears event => exact ended_of_leavesDrains (leavesDrains_conclude _) (ended_apply event known)
  | waits now => exact ended_of_leavesDrains (leavesDrains_expire _ now) known
  | stops told => exact ended_of_leavesDrains (leavesDrains_stop _ told) known
  | leaves => exact ended_of_leavesDrains (leavesDrains_abandon _) known

theorem ended_move_closed (supervision : Supervision) (channel : Channel) :
    ((supervision.move (.hears (.closed channel))).drain channel).ended = true := by
  refine ended_of_leavesDrains (leavesDrains_conclude _) ?_
  change ((supervision.setDrain channel (supervision.drain channel).close).drain channel).ended = _
  rw [drain_setDrain_self]
  rfl

/-- A drain knows of the end of its pipe whatever else has happened to its run. -/
theorem ended_run {moves : List Move}
    (known : (supervision.drain channel).ended = true ∨ .closed channel ∈ heard moves) :
    ((supervision.run moves).drain channel).ended = true := by
  induction moves generalizing supervision with
  | nil => exact known.resolve_right List.not_mem_nil
  | cons first moves ih =>
      refine ih ?_
      rcases known with ended | closed
      · exact .inl (ended_move first ended)
      · rw [heard_cons, List.mem_append] at closed
        refine closed.imp_left fun now => ?_
        cases first with
        | hears event =>
            obtain rfl : event = .closed channel := (List.mem_singleton.mp now).symm
            exact ended_move_closed supervision channel
        | _ => exact absurd now List.not_mem_nil

theorem ended_settle (known : (supervision.drain channel).ended = true) :
    (supervision.settle.drain channel).ended = true := by
  obtain ⟨steps, same⟩ := exists_run_settle supervision
  rw [same]
  exact ended_run (.inl known)

/-- A run has ended, and one of its drains was not cut off. -/
structure ReadsOn (channel : Channel) (supervision : Supervision) : Prop where
  ended : supervision.HasEnded
  intact : (supervision.drain channel).IsIntact

namespace ReadsOn

theorem setDrain (readsOn : supervision.ReadsOn channel) {told : Channel} {drain : Drain}
    (own : told = channel → drain.IsIntact) :
    (supervision.setDrain told drain).ReadsOn channel := by
  refine ⟨hasEnded_of_phase_eq (phase_setDrain ..).symm readsOn.ended, ?_⟩
  by_cases same : channel = told
  · subst same
    rw [drain_setDrain_self]
    exact own rfl
  · rw [drain_setDrain_of_ne _ same]
    exact readsOn.intact

theorem drainStep (readsOn : supervision.ReadsOn channel) (stepping : Channel) :
    (supervision.drainStep stepping).ReadsOn channel := by
  refine ⟨hasEnded_of_phase_eq (phase_drainStep ..).symm readsOn.ended, ?_⟩
  by_cases same : channel = stepping
  · subst same
    rw [drain_drainStep_self]
    cases stepped : (supervision.drain channel).step? with
    | none => exact readsOn.intact
    | some next => exact Drain.isIntact_of_step? stepped
  · rw [drain_drainStep_of_ne _ same]
    exact readsOn.intact

theorem apply (readsOn : supervision.ReadsOn channel) {event : ProcessEvent}
    (spares : event ≠ .lost channel) : (supervision.apply event).ReadsOn channel := by
  cases event with
  | wrote told bytes =>
      refine readsOn.setDrain ?_
      rintro rfl
      exact readsOn.intact.feed bytes
  | closed told =>
      refine readsOn.setDrain ?_
      rintro rfl
      exact readsOn.intact
  | drained stepping => exact readsOn.drainStep stepping
  | lost told =>
      refine readsOn.setDrain ?_
      rintro rfl
      exact absurd rfl spares
  | exited status =>
      change (supervision.exit status).ReadsOn channel
      rwa [(transition_exit _ status).eq_of_hasEnded readsOn.ended]
  | waitFailed cause =>
      change (supervision.failWait cause).ReadsOn channel
      rwa [(transition_failWait _ cause).eq_of_hasEnded readsOn.ended]

theorem move (readsOn : supervision.ReadsOn channel) {move : Move} (spares : move.Spares channel) :
    (supervision.move move).ReadsOn channel := by
  cases move with
  | hears event =>
      have applied := readsOn.apply spares
      change (supervision.apply event).conclude.ReadsOn channel
      rwa [(transition_conclude _).eq_of_hasEnded applied.ended]
  | waits now =>
      change (supervision.expire now).ReadsOn channel
      rwa [(transition_expire _ now).eq_of_hasEnded readsOn.ended]
  | stops told =>
      refine readsOn.setDrain ?_
      rintro rfl
      exact absurd rfl spares
  | leaves =>
      change supervision.abandon.ReadsOn channel
      rwa [(transition_abandon _).eq_of_hasEnded readsOn.ended]

theorem run (readsOn : supervision.ReadsOn channel) {moves : List Move}
    (spare : ∀ move ∈ moves, move.Spares channel) : (supervision.run moves).ReadsOn channel := by
  induction moves generalizing supervision with
  | nil => exact readsOn
  | cons first moves ih =>
      exact ih (readsOn.move (spare first List.mem_cons_self)) fun later member =>
        spare later (List.mem_cons_of_mem first member)

theorem settle (readsOn : supervision.ReadsOn channel) : supervision.settle.ReadsOn channel := by
  refine settle_keeps (ReadsOn channel) (fun later stepping readsOn => ?_) readsOn
  have stepped := readsOn.drainStep stepping
  rwa [(transition_conclude _).eq_of_hasEnded stepped.ended]

end ReadsOn

/-! ## Every run -/

/-- What a run that has just ended leaves of its drains. -/
structure PartsWith (cap : Nat) (program : String) (past : List ProcessEvent)
    (before after : Supervision) : Prop where
  /-- A drain is left behind if it was reading when its process could not be waited for, or when
  the caller gave up, and in no other case. -/
  left_iff : ∀ channel, (after.drain channel).isOver = false ↔
    (before.drain channel).isOver = false ∧ after.LetsDrainsGo
  /-- After any other end the sink is given nothing more. -/
  silent : ¬ after.LetsDrainsGo → ∀ more : List Move, (after.run more).sink = after.sink
  /-- A drain that is left behind reads to the end of its pipe, and the sink is given all lines. -/
  readsOn : ∀ channel, (after.drain channel).isOver = false →
    ∀ more : List Move, (∀ move ∈ more, move.Spares channel) → PipesEnd (past ++ heard more) →
      .closed channel ∈ past ++ heard more →
        onChannel channel (after.run more).settle.sink.toList =
          (linesWritten cap (past ++ heard more) channel).map (SinkLine.mk program channel)

/--
When a run that was started ends, its drains are over, or it lets go of them in one of
two ways.  A command line that is not started has no drains.
-/
theorem partsWith_run (runner : Runner) {now limit : Time} {argv : List String}
    {verdict : Except Refusal Unit} {spawned : Except String Answers} {start : Supervision}
    (started : runner.start now limit argv verdict spawned = .ok start) {moves : List Move}
    {last : Move} (going : ¬ (start.run moves).HasEnded)
    (ended : (start.run (moves ++ [last])).HasEnded) :
    PartsWith runner.cap (argv.headD "") (heard (moves ++ [last])) (start.run moves)
      (start.run (moves ++ [last])) := by
  have ending : Ending (start.run moves) (start.run (moves ++ [last])) := by
    rw [run_append] at ended ⊢
    exact ending_move going ended
  constructor
  case left_iff =>
    intro channel
    cases ending with
    | quietly keeps quiet => simp [quiet channel, keeps]
    | letsGo lets kept => simp [kept channel, lets]
  case silent =>
    intro keeps
    cases ending with
    | quietly _ quiet => exact quiet.run
    | letsGo lets kept => exact absurd lets keeps
  case readsOn =>
    intro channel reading more spare ends closed
    rw [← heard_append] at ends closed ⊢
    rw [← run_append]
    obtain ⟨-, answers, -, whole⟩ := Runner.exists_supervise_of_start started
    have captures := ((captures_supervise runner (argv.headD "") now limit answers).run ends).settle
    rw [List.nil_append, ← whole] at captures
    have begun : (start.run (moves ++ [last])).ReadsOn channel :=
      ⟨ended, .inl (by simpa [Drain.isOver] using reading)⟩
    have intact := (begun.run spare).settle.intact
    rw [← run_append] at intact
    have known : ((start.run (moves ++ [last] ++ more)).settle.drain channel).ended = true :=
      ended_settle (ended_run (.inr closed))
    -- It was not cut off and its pipe has ended, so that it has read all once it can take no step.
    have hears : Drain.Hears True ((start.run (moves ++ [last] ++ more)).settle.drain channel) :=
      ⟨⟨fun _ => trivial, fun _ => known⟩, fun _ => known⟩
    have finished := intact.finished hears trivial (step?_drain_settle _ channel)
    exact (captures.follows channel).sink_of_finished finished

/-- The caller gives up while a tool still writes. -/
theorem partsWith_run_givenUp :
    (Runner.start {} 0 10 ["tool"] (.ok ()) (.ok {}) =
        .ok (Runner.supervise {} "tool" 0 10)) ∧
      ¬ ((Runner.supervise {} "tool" 0 10).run [.hears (.wrote .out [104])]).HasEnded ∧
      ((Runner.supervise {} "tool" 0 10).run [.hears (.wrote .out [104]), .leaves]).HasEnded ∧
      PartsWith 5000000 "tool" (heard [.hears (.wrote .out [104]), .leaves])
        ((Runner.supervise {} "tool" 0 10).run [.hears (.wrote .out [104])])
        ((Runner.supervise {} "tool" 0 10).run [.hears (.wrote .out [104]), .leaves]) := by
  have started : Runner.start {} 0 10 ["tool"] (.ok ()) (.ok {}) =
    .ok (Runner.supervise {} "tool" 0 10) := rfl
  have going : ¬ ((Runner.supervise {} "tool" 0 10).run [.hears (.wrote .out [104])]).HasEnded := by
    rintro (abandoned | ⟨outcome, finished⟩)
    · cases abandoned
    · cases finished
  have ended : ((Runner.supervise {} "tool" 0 10).run
    ([.hears (.wrote .out [104])] ++ [.leaves])).HasEnded := .inl rfl
  exact ⟨started, going, ended, partsWith_run {} started going ended⟩

/-- A run that `last` has ended at once has a drain that is not told to stop, and gives a line
that is written later to the sink. -/
def IsOutlived (last : Move) : Prop :=
  ((Runner.supervise {} "tool" 0 10).run [last]).HasEnded ∧
    (((Runner.supervise {} "tool" 0 10).run [last]).drain .out).isOver = false ∧
    ((Runner.supervise {} "tool" 0 10).run [last]).sink.size = 0 ∧
    ((Runner.supervise {} "tool" 0 10).run
      [last, .hears (.wrote .out [104, 105, 10]), .hears (.drained .out)]).sink.size = 1

theorem runs_outlived : IsOutlived .leaves ∧ IsOutlived (.hears (.waitFailed "No child process")) :=
  ⟨⟨.inl rfl, rfl, rfl, rfl⟩, ⟨.inr ⟨_, rfl⟩, rfl, rfl, rfl⟩⟩

end Turnstile.Supervision
