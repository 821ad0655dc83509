import Turnstile.Child.Supervision

/-!
# What a supervision keeps

The terms of a supervision are fixed when it starts.  Its drains change in small
steps, and a property that each such step keeps is kept when the drains run on.
-/

namespace Turnstile.Supervision

open Output (Channel)

/-- What is fixed when a supervision starts: the program, the limit on its time and its deadline. -/
structure Terms where
  program : String
  limit : Time
  deadline : Time

def terms (supervision : Supervision) : Terms :=
  ⟨supervision.program, supervision.limit, supervision.deadline⟩

variable (supervision : Supervision)

theorem outcome?_eq_some_iff {supervision : Supervision} {outcome : Outcome} :
    supervision.outcome? = some outcome ↔ supervision.phase = .over outcome := by
  unfold outcome?
  split
  · rename_i found finished
    simp [finished]
  · rename_i going
    simpa using going outcome

/-! ## Drains -/

@[simp] theorem drain_setDrain_self (channel : Channel) (drain : Output.Drain) :
    (supervision.setDrain channel drain).drain channel = drain := by
  cases channel <;> rfl

theorem drain_setDrain_of_ne {channel other : Channel} (different : other ≠ channel)
    (drain : Output.Drain) :
    (supervision.setDrain channel drain).drain other = supervision.drain other := by
  cases channel <;> cases other <;> first | rfl | exact absurd rfl different

@[simp] theorem phase_setDrain (channel : Channel) (drain : Output.Drain) :
    (supervision.setDrain channel drain).phase = supervision.phase := by
  cases channel <;> rfl

@[simp] theorem signals_setDrain (channel : Channel) (drain : Output.Drain) :
    (supervision.setDrain channel drain).signals = supervision.signals := by
  cases channel <;> rfl

@[simp] theorem terms_setDrain (channel : Channel) (drain : Output.Drain) :
    (supervision.setDrain channel drain).terms = supervision.terms := by
  cases channel <;> rfl

@[simp] theorem phase_drainStep (channel : Channel) :
    (supervision.drainStep channel).phase = supervision.phase := by
  unfold drainStep
  split
  · rfl
  · exact phase_setDrain supervision channel _

@[simp] theorem signals_drainStep (channel : Channel) :
    (supervision.drainStep channel).signals = supervision.signals := by
  unfold drainStep
  split
  · rfl
  · exact signals_setDrain supervision channel _

@[simp] theorem terms_drainStep (channel : Channel) :
    (supervision.drainStep channel).terms = supervision.terms := by
  unfold drainStep
  split
  · rfl
  · exact terms_setDrain supervision channel _

@[simp] theorem drain_drainStep_self (channel : Channel) :
    (supervision.drainStep channel).drain channel =
      ((supervision.drain channel).step?).getD (supervision.drain channel) := by
  unfold drainStep
  split
  · rename_i waits
    rw [waits]
    rfl
  · rename_i next stepped
    rw [stepped]
    exact drain_setDrain_self supervision channel next

theorem drain_drainStep_of_ne {channel other : Channel} (different : other ≠ channel) :
    (supervision.drainStep channel).drain other = supervision.drain other := by
  unfold drainStep
  split
  · rfl
  · exact drain_setDrain_of_ne supervision different _

/-- What holds of a drain that is put in place, and of the other one, holds of both. -/
theorem forall_drain_setDrain (holds : Channel → Output.Drain → Prop) {channel : Channel}
    {drain : Output.Drain} (own : holds channel drain)
    (rest : ∀ other, other ≠ channel → holds other (supervision.drain other)) (other : Channel) :
    holds other ((supervision.setDrain channel drain).drain other) := by
  by_cases same : other = channel
  · subst same
    rwa [drain_setDrain_self]
  · rw [drain_setDrain_of_ne _ same]
    exact rest other same

/-- What holds of both drains holds after a step of one that keeps it. -/
theorem forall_drain_drainStep (holds : Channel → Output.Drain → Prop) {channel : Channel}
    (own : ∀ next, (supervision.drain channel).step? = some next → holds channel next)
    (rest : ∀ other, holds other (supervision.drain other)) (other : Channel) :
    holds other ((supervision.drainStep channel).drain other) := by
  by_cases same : other = channel
  · subst same
    rw [drain_drainStep_self]
    cases stepped : (supervision.drain other).step? with
    | none => exact rest other
    | some next => exact own next stepped
  · rw [drain_drainStep_of_ne _ same]
    exact rest other

/-! ## Terms -/

@[simp] theorem terms_conclude : supervision.conclude.terms = supervision.terms := by
  unfold conclude
  split
  · split <;> rfl
  · rfl

@[simp] theorem terms_pursue (signals : List Signal) (shutdown : Shutdown) :
    (supervision.pursue signals shutdown).terms = supervision.terms := by
  unfold pursue
  split <;> rfl

@[simp] theorem terms_expireDeadline : supervision.expireDeadline.terms = supervision.terms := by
  unfold expireDeadline
  split
  · exact terms_pursue _ _ _
  · rfl
  · rfl

@[simp] theorem terms_expireGrace (now : Time) :
    (supervision.expireGrace now).terms = supervision.terms := by
  unfold expireGrace
  split
  · exact terms_pursue _ _ _
  · rfl

@[simp] theorem terms_expire (now : Time) : (supervision.expire now).terms = supervision.terms := by
  unfold expire
  split <;> simp

/-- Time gives nothing to the sink. -/
@[simp] theorem sink_expire (now : Time) : (supervision.expire now).sink = supervision.sink := by
  have pursued (later : Supervision) (signals : List Signal) (shutdown : Shutdown) :
      (later.pursue signals shutdown).sink = later.sink := by
    unfold pursue
    split <;> rfl
  have deadline : supervision.expireDeadline.sink = supervision.sink := by
    unfold expireDeadline
    split
    · exact pursued _ _ _
    · rfl
    · rfl
  have grace (later : Supervision) : (later.expireGrace now).sink = later.sink := by
    unfold expireGrace
    split
    · exact pursued _ _ _
    · rfl
  unfold expire
  rw [grace]
  split
  · exact deadline
  · rfl

@[simp] theorem terms_exit (status : ExitStatus) :
    (supervision.exit status).terms = supervision.terms := by
  unfold exit
  split
  · rfl
  · unfold follow
    split <;> rfl
  · rfl

@[simp] theorem terms_failWait (cause : String) :
    (supervision.failWait cause).terms = supervision.terms := by
  unfold failWait
  split <;> rfl

@[simp] theorem terms_apply (event : ProcessEvent) :
    (supervision.apply event).terms = supervision.terms := by
  cases event <;> simp [apply]

/-! ## Running on -/

/-- What every step of a drain keeps holds once the drains have run on. -/
theorem settle_keeps (holds : Supervision → Prop)
    (keeps : ∀ (supervision : Supervision) (channel : Channel), holds supervision →
      holds (supervision.drainStep channel).conclude)
    {supervision : Supervision} (start : holds supervision) : holds supervision.settle := by
  induction supervision using settle.induct with
  | case1 supervision ready ih =>
      rw [settle, dif_pos ready]
      exact ih (keeps supervision .out start)
  | case2 supervision waits ready ih =>
      rw [settle, dif_neg waits, dif_pos ready]
      exact ih (keeps supervision .err start)
  | case3 supervision out err =>
      rw [settle, dif_neg out, dif_neg err]
      exact start

/-- Once the drains have run on, neither can take a step. -/
theorem step?_drain_settle (channel : Channel) :
    (supervision.settle.drain channel).step? = none := by
  induction supervision using settle.induct with
  | case1 supervision ready ih => rwa [settle, dif_pos ready]
  | case2 supervision waits ready ih => rwa [settle, dif_neg waits, dif_pos ready]
  | case3 supervision out err =>
      rw [settle, dif_neg out, dif_neg err]
      cases channel with
      | out => simpa using out
      | err => simpa using err

@[simp] theorem terms_settle : supervision.settle.terms = supervision.terms :=
  settle_keeps (fun later => later.terms = supervision.terms)
    (fun later channel same => by simpa using same) rfl

@[simp] theorem terms_observe (now : Time) (event : ProcessEvent) :
    (supervision.observe now event).terms = supervision.terms := by
  simp [observe, step]

/-- A supervision that has been concluded has no end that is due and was not made. -/
@[simp] theorem conclude_conclude : supervision.conclude.conclude = supervision.conclude := by
  generalize same : supervision.conclude = later
  unfold conclude at same
  split at same
  · rename_i status draining
    split at same
    · subst same
      rfl
    · rename_i unfinished
      subst same
      simp [conclude, draining, unfinished]
  · rename_i other
    subst same
    unfold conclude
    split
    · rename_i status draining
      exact absurd draining (other status)
    · rfl

theorem conclude_settle {supervision : Supervision}
    (concluded : supervision.conclude = supervision) :
    supervision.settle.conclude = supervision.settle :=
  settle_keeps (fun later => later.conclude = later)
    (fun later channel _ => conclude_conclude (later.drainStep channel)) concluded

theorem conclude_observe (now : Time) (event : ProcessEvent) :
    (supervision.observe now event).conclude = supervision.observe now event :=
  conclude_settle (conclude_conclude _)

end Turnstile.Supervision
