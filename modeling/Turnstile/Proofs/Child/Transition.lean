import Turnstile.Proofs.Child.Moves

/-!
# How a run goes on

Time, the exit of the process and the caller take a run from one phase to the next.
A run that has ended stays as it is.  One that goes on may end with drains that are
over, or by telling them to stop, or by leaving them to themselves.
-/

namespace Turnstile.Supervision

open Output (Drain)

/-- The run has an outcome, or no one waits for one. -/
def HasEnded (supervision : Supervision) : Prop :=
  supervision.phase = .abandoned ∨ ∃ outcome, supervision.phase = .over outcome

/-- The run has ended in one of the two ways that leave the drains to themselves. -/
def LetsDrainsGo (supervision : Supervision) : Prop :=
  supervision.phase = .abandoned ∨ ∃ cause, supervision.phase = .over (.error (.io cause))

/-- Both drains have come to an end or were told to stop. -/
def IsQuiet (supervision : Supervision) : Prop :=
  ∀ channel, (supervision.drain channel).isOver = true

/-- How a run goes on when something other than its drains takes a step. -/
inductive Transition (before : Supervision) : Supervision → Prop where
  | stays : Transition before before
  | goesOn {after : Supervision} (going : ¬ before.HasEnded) (goes : ¬ after.HasEnded)
      (same : ∀ channel, after.drain channel = before.drain channel) : Transition before after
  /-- The exit code of a process whose pipes were drained is told. -/
  | concludes {after : Supervision} {program : String} {code : Int} {messages : String}
      (going : ¬ before.HasEnded) (quiet : before.IsQuiet)
      (told : after.phase = .over (classify program code messages))
      (same : ∀ channel, after.drain channel = before.drain channel) : Transition before after
  /-- Time runs out, and the drains are told to stop. -/
  | cutsOff {after : Supervision} {program : String} {limit : Time} {messages : String}
      (going : ¬ before.HasEnded)
      (told : after.phase = .over (.error (.timeout program limit messages)))
      (stopped : ∀ channel, after.drain channel = (before.drain channel).abort) :
      Transition before after
  /-- Nobody waits for the drains any longer. -/
  | letsGo {after : Supervision} (going : ¬ before.HasEnded) (lets : after.LetsDrainsGo)
      (same : ∀ channel, after.drain channel = before.drain channel) : Transition before after

variable {before after last supervision : Supervision}

theorem LetsDrainsGo.hasEnded (lets : supervision.LetsDrainsGo) : supervision.HasEnded :=
  lets.imp_right fun ⟨_, failed⟩ => ⟨_, failed⟩

theorem hasEnded_of_over {outcome : Outcome} (told : supervision.phase = .over outcome) :
    supervision.HasEnded :=
  .inr ⟨outcome, told⟩

namespace Transition

/-- A run that has ended stays as it is. -/
theorem eq_of_hasEnded (transition : Transition before after) (ended : before.HasEnded) :
    after = before := by
  cases transition with
  | stays => rfl
  | goesOn going => exact absurd ended going
  | concludes going => exact absurd ended going
  | cutsOff going => exact absurd ended going
  | letsGo going => exact absurd ended going

theorem trans (one : Transition before after) (other : Transition after last) :
    Transition before last := by
  cases one with
  | stays => exact other
  | goesOn going goes same =>
      cases other with
      | stays => exact .goesOn going goes same
      | goesOn _ goes next =>
          exact .goesOn going goes fun channel => (next channel).trans (same channel)
      | concludes _ quiet told next =>
          refine .concludes going (fun channel => ?_) told fun channel =>
            (next channel).trans (same channel)
          rw [← same channel]
          exact quiet channel
      | cutsOff _ told stopped =>
          exact .cutsOff going told fun channel => same channel ▸ stopped channel
      | letsGo _ lets next =>
          exact .letsGo going lets fun channel => (next channel).trans (same channel)
  | concludes going quiet told same =>
      rw [other.eq_of_hasEnded (hasEnded_of_over told)]
      exact .concludes going quiet told same
  | cutsOff going told stopped =>
      rw [other.eq_of_hasEnded (hasEnded_of_over told)]
      exact .cutsOff going told stopped
  | letsGo going lets same =>
      rw [other.eq_of_hasEnded lets.hasEnded]
      exact .letsGo going lets same

end Transition

/-! ## What happens to a run -/

theorem drain_eq (out : after.out = before.out) (err : after.err = before.err)
    (channel : Output.Channel) : after.drain channel = before.drain channel := by
  cases channel with
  | out => exact out
  | err => exact err

variable (supervision)

theorem transition_conclude : Transition supervision supervision.conclude := by
  unfold conclude
  split
  · rename_i status draining
    split
    · rename_i both
      rw [Bool.and_eq_true] at both
      refine .concludes (by simp [HasEnded, draining]) (fun channel => ?_) rfl (drain_eq rfl rfl)
      cases channel with
      | out => exact both.1
      | err => exact both.2
    · exact .stays
  · exact .stays

theorem transition_letGo (going : ¬ supervision.HasEnded) :
    Transition supervision supervision.letGo :=
  .cutsOff going rfl fun channel => by cases channel <;> rfl

/-- An ending that fails cuts the drains off. -/
theorem transition_pursue (going : ¬ supervision.HasEnded) (signals : List Signal)
    (shutdown : Shutdown) : Transition supervision (supervision.pursue signals shutdown) := by
  unfold pursue
  split
  · exact .cutsOff going rfl fun channel => by cases channel <;> rfl
  · exact .goesOn going (by simp [HasEnded]) (drain_eq rfl rfl)

theorem transition_expireDeadline : Transition supervision supervision.expireDeadline := by
  unfold expireDeadline
  split
  · rename_i running
    have going : ¬ supervision.HasEnded := by simp [HasEnded, running]
    let warned := { supervision with log := supervision.log.push timeoutWarning }
    have goes : Transition supervision warned := .goesOn going going (drain_eq rfl rfl)
    exact goes.trans (transition_pursue warned going _ _)
  · rename_i status draining
    exact .cutsOff (by simp [HasEnded, draining]) rfl fun channel => by cases channel <;> rfl
  · exact .stays

theorem transition_expireGrace (now : Time) :
    Transition supervision (supervision.expireGrace now) := by
  unfold expireGrace
  split
  · rename_i shutdown stopping
    exact transition_pursue supervision (by simp [HasEnded, stopping]) _ _
  · exact .stays

theorem transition_expire (now : Time) : Transition supervision (supervision.expire now) := by
  unfold expire
  split
  · exact (transition_expireDeadline supervision).trans (transition_expireGrace _ now)
  · exact transition_expireGrace supervision now

theorem transition_exit (status : ExitStatus) :
    Transition supervision (supervision.exit status) := by
  unfold exit
  split
  · rename_i running
    exact .goesOn (by simp [HasEnded, running]) (by simp [HasEnded]) (drain_eq rfl rfl)
  · rename_i shutdown stopping
    have going : ¬ supervision.HasEnded := by simp [HasEnded, stopping]
    unfold follow
    split
    · exact .cutsOff going rfl fun channel => by cases channel <;> rfl
    · exact .goesOn going (by simp [HasEnded]) (drain_eq rfl rfl)
  · exact .stays

theorem transition_failWait (cause : String) :
    Transition supervision (supervision.failWait cause) := by
  unfold failWait
  split
  · rename_i running
    exact .letsGo (by simp [HasEnded, running]) (.inr ⟨cause, rfl⟩) (drain_eq rfl rfl)
  · rename_i shutdown stopping
    exact transition_letGo supervision (by simp [HasEnded, stopping])
  · exact .stays

theorem transition_abandon : Transition supervision supervision.abandon := by
  unfold abandon
  split
  · exact .stays
  · exact .stays
  · rename_i status draining
    exact .letsGo (by simp [HasEnded, draining]) (.inl rfl) (drain_eq rfl rfl)
  · rename_i notOver notAbandoned _
    refine .letsGo ?_ (.inl rfl) (drain_eq rfl rfl)
    rintro (abandoned | ⟨outcome, finished⟩)
    · exact notAbandoned abandoned
    · exact notOver outcome finished

end Turnstile.Supervision
