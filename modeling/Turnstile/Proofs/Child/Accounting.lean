import Turnstile.Proofs.Child.Supervision

/-!
# What becomes of a process

A supervision lets go of its process in two ways only: the process is reaped, or
it is sent the signal that ends it by force.
-/

namespace Turnstile

open Output (Channel)

/-- An event that reaps the process. -/
def ProcessEvent.reaps : ProcessEvent → Bool
  | .exited _ => true
  | _ => false

namespace Supervision

/-- The supervision has not let go of its process. -/
def IsOpen (supervision : Supervision) : Prop :=
  supervision.phase = .running ∨ ∃ shutdown, supervision.phase = .stopping shutdown

/-- A process that the supervision has let go of was reaped, or is ended by force. -/
def Accounted (reaped : Prop) (supervision : Supervision) : Prop :=
  supervision.IsOpen ∨ reaped ∨ .kill ∈ supervision.signals

/-- The later supervision has not taken the process up again, nor let go of it unaccounted for. -/
structure LetsGo (reaped : Prop) (before later : Supervision) : Prop where
  taken : later.IsOpen → before.IsOpen
  released : before.IsOpen → later.IsOpen ∨ reaped ∨ .kill ∈ later.signals
  signals : ∀ signal ∈ before.signals, signal ∈ later.signals

variable {reaped : Prop} {before later : Supervision}

theorem LetsGo.accounted (goes : LetsGo reaped before later) {known : Prop}
    (sooner : known → reaped) (accounted : before.Accounted known) : later.Accounted reaped := by
  rcases accounted with opened | known | killed
  · exact goes.released opened
  · exact .inr (.inl (sooner known))
  · exact .inr (.inr (goes.signals .kill killed))

theorem LetsGo.mono (goes : LetsGo reaped before later) {known : Prop} (sooner : reaped → known) :
    LetsGo known before later :=
  ⟨goes.taken, fun opened => (goes.released opened).imp_right fun rest => rest.imp_left sooner,
    goes.signals⟩

theorem LetsGo.trans {last : Supervision} (one : LetsGo reaped before later)
    (other : LetsGo reaped later last) : LetsGo reaped before last where
  taken opened := one.taken (other.taken opened)
  released opened := by
    rcases one.released opened with opened | reaped | killed
    · exact other.released opened
    · exact .inr (.inl reaped)
    · exact .inr (.inr (other.signals .kill killed))
  signals signal sent := other.signals signal (one.signals signal sent)

/-- What changes neither phase nor signals lets go of nothing. -/
theorem LetsGo.of_eq (phase : later.phase = before.phase)
    (signals : later.signals = before.signals) :
    LetsGo reaped before later where
  taken := by rw [IsOpen, IsOpen, phase]; exact id
  released opened := .inl (by rwa [IsOpen, phase])
  signals signal sent := by rwa [signals]

/-- A supervision that has let go of its process goes on without it. -/
theorem LetsGo.of_not_open (was : ¬ before.IsOpen) (is : ¬ later.IsOpen)
    (signals : ∀ signal ∈ before.signals, signal ∈ later.signals) : LetsGo reaped before later where
  taken opened := absurd opened is
  released opened := absurd opened was
  signals := signals

variable (supervision : Supervision)

theorem not_isOpen_of_draining {status : ExitStatus}
    (draining : supervision.phase = .draining status) :
    ¬ supervision.IsOpen := by
  simp [IsOpen, draining]

theorem letsGo_conclude : LetsGo reaped supervision supervision.conclude := by
  unfold conclude
  split
  · rename_i status draining
    split
    · exact .of_not_open (not_isOpen_of_draining _ draining) (by simp [IsOpen]) fun _ => id
    · exact .of_eq rfl rfl
  · exact .of_eq rfl rfl

theorem letsGo_drainStep (channel : Channel) :
    LetsGo reaped supervision (supervision.drainStep channel) :=
  .of_eq (phase_drainStep supervision channel) (signals_drainStep supervision channel)

theorem letsGo_settle : LetsGo reaped supervision supervision.settle :=
  settle_keeps (LetsGo reaped supervision)
    (fun later channel goes =>
      goes.trans ((letsGo_drainStep later channel).trans (letsGo_conclude _)))
    (.of_eq rfl rfl)

theorem letsGo_letGo (opened : supervision.IsOpen) :
    LetsGo reaped supervision supervision.letGo :=
  ⟨fun _ => opened, fun _ => .inr (.inr (List.mem_append_right _ List.mem_cons_self)),
    fun _ => List.mem_append_left _⟩

/-- An ending that fails lets go of a process by force. -/
theorem letsGo_pursue (opened : supervision.IsOpen) (signals : List Signal) (shutdown : Shutdown) :
    LetsGo reaped supervision (supervision.pursue signals shutdown) := by
  unfold pursue
  split
  · have goes : LetsGo reaped { supervision with signals := supervision.signals ++ signals } _ :=
      letsGo_letGo _ opened
    exact ⟨goes.taken, goes.released, fun signal sent =>
      goes.signals signal (List.mem_append_left _ sent)⟩
  · exact ⟨fun _ => opened, fun _ => .inl (.inr ⟨_, rfl⟩), fun _ => List.mem_append_left _⟩

theorem letsGo_expireDeadline : LetsGo reaped supervision supervision.expireDeadline := by
  unfold expireDeadline
  split
  · rename_i running
    let warned := { supervision with log := supervision.log.push timeoutWarning }
    have goes : LetsGo reaped supervision warned := .of_eq rfl rfl
    exact goes.trans (letsGo_pursue warned (.inl running) _ _)
  · rename_i status draining
    exact .of_not_open (not_isOpen_of_draining _ draining) (by simp [IsOpen, cutOff]) fun _ => id
  · exact .of_eq rfl rfl

theorem letsGo_expireGrace (now : Time) : LetsGo reaped supervision
    (supervision.expireGrace now) := by
  unfold expireGrace
  split
  · rename_i shutdown stopping
    exact letsGo_pursue supervision (.inr ⟨_, stopping⟩) _ _
  · exact .of_eq rfl rfl

theorem letsGo_expire (now : Time) : LetsGo reaped supervision (supervision.expire now) := by
  unfold expire
  split
  · exact (letsGo_expireDeadline supervision).trans (letsGo_expireGrace _ now)
  · exact letsGo_expireGrace supervision now

theorem letsGo_exit (status : ExitStatus) : LetsGo True supervision (supervision.exit status) := by
  unfold exit
  split
  · rename_i running
    exact ⟨fun _ => .inl running, fun _ => .inr (.inl trivial), fun _ => id⟩
  · rename_i shutdown stopping
    unfold follow
    split <;> exact ⟨fun _ => .inr ⟨_, stopping⟩, fun _ => .inr (.inl trivial), fun _ => id⟩
  · exact .of_eq rfl rfl

theorem letsGo_failWait (cause : String) : LetsGo reaped supervision
    (supervision.failWait cause) := by
  unfold failWait
  split
  · rename_i running
    exact ⟨fun _ => .inl running, fun _ => .inr (.inr (by simp)), fun _ => List.mem_append_left _⟩
  · rename_i shutdown stopping
    exact letsGo_letGo supervision (.inr ⟨_, stopping⟩)
  · exact .of_eq rfl rfl

theorem letsGo_apply (event : ProcessEvent) :
    LetsGo (event.reaps = true) supervision (supervision.apply event) := by
  cases event with
  | wrote channel bytes => exact .of_eq (phase_setDrain _ _ _) (signals_setDrain _ _ _)
  | closed channel => exact .of_eq (phase_setDrain _ _ _) (signals_setDrain _ _ _)
  | drained channel => exact letsGo_drainStep supervision channel
  | lost channel => exact .of_eq (phase_setDrain _ _ _) (signals_setDrain _ _ _)
  | exited status =>
      have goes := letsGo_exit supervision status
      exact ⟨goes.taken, fun _ => .inr (.inl rfl), goes.signals⟩
  | waitFailed cause => exact letsGo_failWait supervision cause

theorem letsGo_observe (now : Time) (event : ProcessEvent) :
    LetsGo (event.reaps = true) supervision (supervision.observe now event) :=
  (letsGo_expire supervision now).trans
    ((letsGo_apply _ event).trans ((letsGo_conclude _).trans (letsGo_settle _)))

theorem letsGo_elapse (now : Time) : LetsGo reaped supervision (supervision.elapse now) :=
  letsGo_expire supervision (now + 1)

theorem letsGo_abandon : LetsGo reaped supervision supervision.abandon := by
  unfold abandon
  split
  · exact .of_eq rfl rfl
  · exact .of_eq rfl rfl
  · rename_i status draining
    exact .of_not_open (not_isOpen_of_draining _ draining) (by simp [IsOpen]) fun _ => id
  · refine ⟨?_, fun _ => .inr (.inr (by simp)), fun _ => List.mem_append_left _⟩
    rintro (running | ⟨shutdown, stopping⟩)
    · cases running
    · cases stopping

theorem not_isOpen_abandon : ¬ supervision.abandon.IsOpen := by
  unfold abandon
  split
  · rename_i outcome finished
    simp [IsOpen, finished]
  · rename_i abandoned
    simp [IsOpen, abandoned]
  · simp [IsOpen]
  · simp [IsOpen]

theorem not_isOpen_of_outcome {supervision : Supervision} {outcome : Outcome}
    (finished : supervision.outcome? = some outcome) : ¬ supervision.IsOpen := by
  unfold outcome? at finished
  split at finished
  · rename_i phase
    simp [IsOpen, phase]
  · cases finished

end Supervision

end Turnstile
