import Turnstile.Proofs.Child.Supervision
import Turnstile.Proofs.Output.Drain
import Turnstile.Runner

/-!
# The outcome of a timeline

What a process does is a list of events with the instants at which they happen.
Up to the deadline the supervision knows exactly which of three events it has
heard of: the exit and the ends of both pipes.  From the deadline on there is one
outcome left.
-/

namespace Turnstile

open Output (Channel Drain)

/-- An event in which neither reading nor waiting fails. -/
def ProcessEvent.Sound : ProcessEvent → Prop
  | .lost _ => False
  | .waitFailed _ => False
  | _ => True

namespace Supervision

/-- The status with which the process exits, if it does. -/
def exit? (events : List ProcessEvent) : Option ExitStatus :=
  events.findSome? fun
    | .exited status => some status
    | _ => none

theorem exit?_concat_exited (past : List ProcessEvent) (status : ExitStatus) :
    exit? (past ++ [.exited status]) = some ((exit? past).getD status) := by
  rw [exit?, List.findSome?_append]
  change (exit? past).or (some status) = _
  cases exit? past <;> rfl

theorem exit?_concat_of_ne {past : List ProcessEvent} {event : ProcessEvent}
    (other : ∀ status, event ≠ .exited status) : exit? (past ++ [event]) = exit? past := by
  rw [exit?, List.findSome?_append]
  change (exit? past).or _ = _
  cases event with
  | exited status => exact absurd rfl (other status)
  | _ => simp [List.findSome?]

/-! ## Up to the deadline -/

/-- Before its deadline a supervision knows what its process has done and has drawn no other end. -/
structure AtWork (past : List ProcessEvent) (supervision : Supervision) : Prop where
  hears : ∀ channel, (supervision.drain channel).Hears (.closed channel ∈ past)
  running : exit? past = none → supervision.phase = .running
  exited : ∀ status, exit? past = some status →
    supervision.phase = .draining status ∨
      (∀ channel, (supervision.drain channel).isOver = true) ∧
        ∃ messages, supervision.phase = .over (classify supervision.program status.code messages)

variable {past : List ProcessEvent} {supervision : Supervision}

namespace AtWork

/-- The drains may go on while the phase stays. -/
theorem of_drains (works : AtWork past supervision) {heard : List ProcessEvent}
    {later : Supervision} (phase : later.phase = supervision.phase)
    (terms : later.terms = supervision.terms) (same : exit? heard = exit? past)
    (hears : ∀ channel, (later.drain channel).Hears (.closed channel ∈ heard))
    (finished : ∀ channel, (supervision.drain channel).isOver = true →
      (later.drain channel).isOver = true) : AtWork heard later where
  hears := hears
  running absent := by
    rw [phase]
    exact works.running (same ▸ absent)
  exited status known := by
    have program : later.program = supervision.program := congrArg Terms.program terms
    rw [phase, program]
    exact (works.exited status (same ▸ known)).imp_right fun ⟨both, ended⟩ =>
      ⟨fun channel => finished channel (both channel), ended⟩

theorem conclude (works : AtWork past supervision) : AtWork past supervision.conclude := by
  unfold Supervision.conclude
  split
  · rename_i status draining
    split
    · rename_i ended
      rw [Bool.and_eq_true] at ended
      refine ⟨works.hears, fun absent => ?_, fun other known => .inr ⟨?_, supervision.messages, ?_⟩⟩
      · rw [works.running absent] at draining
        cases draining
      · intro channel
        cases channel with
        | out => exact ended.1
        | err => exact ended.2
      · rcases works.exited other known with same | ⟨_, messages, finished⟩
        · rw [draining] at same
          cases same
          rfl
        · rw [draining] at finished
          cases finished
    · exact works
  · exact works

theorem drainStep (works : AtWork past supervision) (channel : Channel) :
    AtWork past (supervision.drainStep channel) := by
  refine works.of_drains (by simp) (by simp) rfl ?_ ?_
  · exact forall_drain_drainStep _ (fun other drain => drain.Hears (.closed other ∈ past))
      (fun _ stepped => (works.hears channel).step? stepped) works.hears
  · refine forall_drain_drainStep _
      (fun other drain => (supervision.drain other).isOver = true → drain.isOver = true)
      (fun next stepped finished => ?_) fun _ finished => finished
    rw [Drain.isOver_of_step? stepped] at finished
    cases finished

theorem settle (works : AtWork past supervision) : AtWork past supervision.settle :=
  settle_keeps (AtWork past) (fun _ channel works => (works.drainStep channel).conclude) works

/-- A drain is told something; the other one is not. -/
theorem setDrain (works : AtWork past supervision) {event : ProcessEvent} {channel : Channel}
    {drain : Drain} (other : ∀ status, event ≠ .exited status)
    (own : drain.Hears (.closed channel ∈ past ++ [event]))
    (else_ : ∀ other, other ≠ channel → event ≠ .closed other)
    (finished : (supervision.drain channel).isOver = true → drain.isOver = true) :
    AtWork (past ++ [event]) (supervision.setDrain channel drain) := by
  refine works.of_drains (by simp) (by simp) (exit?_concat_of_ne other) ?_ ?_
  · refine forall_drain_setDrain _ (fun known drain => drain.Hears (.closed known ∈ past ++ [event]))
      own fun known different => ?_
    have silent : (.closed known ∈ past ++ [event]) = (.closed known ∈ past) := by
      simp [(else_ known different).symm]
    rw [silent]
    exact works.hears known
  · exact forall_drain_setDrain _
      (fun known drain => (supervision.drain known).isOver = true → drain.isOver = true)
      finished fun _ _ ended => ended

theorem exit (works : AtWork past supervision) (status : ExitStatus) :
    AtWork (past ++ [.exited status]) (supervision.exit status) := by
  have hears (channel : Channel) :
      (supervision.drain channel).Hears (.closed channel ∈ past ++ [.exited status]) := by
    simpa using works.hears channel
  cases heard : exit? past with
  | none =>
      have same : supervision.exit status = { supervision with phase := .draining status } := by
        simp [Supervision.exit, works.running heard]
      rw [same]
      refine ⟨?_, fun absent => ?_, fun other known => ?_⟩
      · intro channel
        cases channel with
        | out => exact hears .out
        | err => exact hears .err
      · rw [exit?_concat_exited] at absent
        cases absent
      · rw [exit?_concat_exited, heard] at known
        cases known
        exact .inl rfl
  | some first =>
      have exited := works.exited first heard
      have same : supervision.exit status = supervision := by
        rcases exited with phase | ⟨_, messages, phase⟩ <;> simp [Supervision.exit, phase]
      have known : exit? (past ++ [.exited status]) = exit? past := by
        rw [exit?_concat_exited, heard, Option.getD_some]
      rw [same]
      exact works.of_drains rfl rfl known hears fun _ finished => finished

/-- While neither reading nor waiting fails, an event adds itself to what is known. -/
theorem apply (works : AtWork past supervision) {event : ProcessEvent} (sound : event.Sound) :
    AtWork (past ++ [event]) (supervision.apply event) := by
  cases event with
  | wrote channel bytes =>
      refine works.setDrain nofun ?_ (fun _ _ => nofun) (by simp)
      simpa using (works.hears channel).feed bytes
  | closed channel =>
      refine works.setDrain nofun ?_ (fun other different same => ?_) (by simp)
      · simpa using Drain.Hears.close (supervision.drain channel)
      · cases same
        exact different rfl
  | drained channel =>
      change AtWork _ (supervision.drainStep channel)
      have stepped := works.drainStep channel
      refine stepped.of_drains rfl rfl (exit?_concat_of_ne nofun) (fun other => ?_)
        fun _ finished => finished
      simpa using stepped.hears other
  | lost channel => exact absurd sound id
  | exited status => exact works.exit status
  | waitFailed cause => exact absurd sound id

theorem expire (works : AtWork past supervision) {now : Time} (early : now ≤ supervision.deadline) :
    supervision.expire now = supervision := by
  have waits : supervision.expireGrace now = supervision := by
    cases heard : exit? past with
    | none => simp [expireGrace, works.running heard]
    | some status =>
        rcases works.exited status heard with phase | ⟨_, messages, phase⟩ <;>
          simp [expireGrace, phase]
  rw [Supervision.expire, if_neg (Nat.not_lt.mpr early), waits]

theorem observe (works : AtWork past supervision) {now : Time}
    (early : now ≤ supervision.deadline) {event : ProcessEvent} (sound : event.Sound) :
    AtWork (past ++ [event]) (supervision.observe now event) := by
  rw [Supervision.observe, step, works.expire early]
  exact (works.apply sound).conclude.settle

end AtWork

/-- A supervision whose drains wait for their pipes, and whose end has been drawn if it is due. -/
structure Rests (supervision : Supervision) : Prop where
  waits : ∀ channel, (supervision.drain channel).step? = none
  concluded : supervision.conclude = supervision

theorem rests_observe (now : Time) (event : ProcessEvent) (supervision : Supervision) :
    (supervision.observe now event).Rests :=
  ⟨fun channel => step?_drain_settle _ channel, conclude_observe _ now event⟩

/-- Both pipes have ended. -/
def BothClosed (past : List ProcessEvent) : Prop :=
  ∀ channel, .closed channel ∈ past

/-- At rest, a supervision is over exactly if the process has exited and both pipes have ended. -/
theorem AtWork.over_iff (works : AtWork past supervision) (rests : supervision.Rests)
    {status : ExitStatus} (known : exit? past = some status) :
    (BothClosed past → ∃ messages, supervision.phase =
      .over (classify supervision.program status.code messages)) ∧
    (¬ BothClosed past → supervision.phase = .draining status) := by
  have over_iff (channel : Channel) := (works.hears channel).isOver_iff (rests.waits channel)
  constructor
  · intro closed
    rcases works.exited status known with draining | ⟨_, ended⟩
    · have concluded := rests.concluded
      have out := (over_iff .out).mpr (closed .out)
      have err := (over_iff .err).mpr (closed .err)
      simp only [drain] at out err
      simp only [Supervision.conclude, draining, out, err] at concluded
      have phase := congrArg phase concluded
      rw [draining] at phase
      cases phase
    · exact ended
  · intro unclosed
    rcases works.exited status known with draining | ⟨ended, _⟩
    · exact draining
    · exact absurd (fun channel => (over_iff channel).mp (ended channel)) unclosed

/-! ## An end that has been drawn -/

theorem conclude_of_not_draining (other : ∀ status, supervision.phase ≠ .draining status) :
    supervision.conclude = supervision := by
  unfold Supervision.conclude
  split
  · rename_i status draining
    exact absurd draining (other status)
  · rfl

/-- The drains draw no end but that of a process that has exited. -/
theorem phase_settle_of_not_draining (other : ∀ status, supervision.phase ≠ .draining status) :
    supervision.settle.phase = supervision.phase :=
  settle_keeps (fun later => later.phase = supervision.phase)
    (fun later channel same => by
      have phase := (phase_drainStep later channel).trans same
      rw [conclude_of_not_draining (fun status => phase ▸ other status), phase]) rfl

theorem phase_expire_of_over {outcome : Outcome} (finished : supervision.phase = .over outcome)
    (now : Time) : (supervision.expire now).phase = .over outcome := by
  have expired : supervision.expireDeadline = supervision := by simp [expireDeadline, finished]
  rw [Supervision.expire, expired, ite_self]
  simp [expireGrace, finished]

theorem phase_apply_of_over {outcome : Outcome} (finished : supervision.phase = .over outcome)
    (event : ProcessEvent) : (supervision.apply event).phase = .over outcome := by
  cases event <;> simp [Supervision.apply, Supervision.exit, failWait, finished]

/-- What happens to a supervision at an instant, the time before it having passed. -/
def hear (event : ProcessEvent) (supervision : Supervision) : Supervision :=
  (supervision.apply event).conclude.settle

@[simp] theorem terms_hear (event : ProcessEvent) :
    (supervision.hear event).terms = supervision.terms := by
  simp [hear]

theorem phase_hear_of_over {outcome : Outcome} (finished : supervision.phase = .over outcome)
    (event : ProcessEvent) : (supervision.hear event).phase = .over outcome := by
  have after := phase_apply_of_over finished event
  have other (status : ExitStatus) : (supervision.apply event).phase ≠ .draining status := by
    rw [after]
    nofun
  rw [hear, conclude_of_not_draining other, phase_settle_of_not_draining other, after]

/-- A process does what it does, each thing at its instant. -/
def through (timeline : List (Time × ProcessEvent)) (supervision : Supervision) : Supervision :=
  timeline.foldl (fun supervision item => supervision.observe item.1 item.2) supervision

theorem through_append (first second : List (Time × ProcessEvent)) :
    supervision.through (first ++ second) = (supervision.through first).through second :=
  List.foldl_append

@[simp] theorem terms_through (timeline : List (Time × ProcessEvent)) :
    (supervision.through timeline).terms = supervision.terms := by
  induction timeline generalizing supervision with
  | nil => rfl
  | cons item timeline ih => exact ih.trans (terms_observe supervision item.1 item.2)

theorem phase_through_of_over {outcome : Outcome} (finished : supervision.phase = .over outcome)
    (timeline : List (Time × ProcessEvent)) :
    (supervision.through timeline).phase = .over outcome := by
  induction timeline generalizing supervision with
  | nil => exact finished
  | cons item timeline ih =>
      exact ih (phase_hear_of_over (phase_expire_of_over finished item.1) item.2)

/-! ## After the deadline -/

/-- The process is being ended and has not been seen to exit. -/
def IsEnding (supervision : Supervision) : Prop :=
  ∃ shutdown : Shutdown, supervision.phase = .stopping shutdown ∧ shutdown.isOver = false

/-- The run has ended because its time was up. -/
def IsOverdue (supervision : Supervision) : Prop :=
  ∃ messages, supervision.phase =
    .over (.error (.timeout supervision.terms.program supervision.terms.limit messages))

theorem IsOverdue.hear (overdue : supervision.IsOverdue) (event : ProcessEvent) :
    (supervision.hear event).IsOverdue := by
  obtain ⟨messages, finished⟩ := overdue
  exact ⟨messages, by rw [terms_hear, phase_hear_of_over finished]⟩

theorem IsOverdue.expire (overdue : supervision.IsOverdue) (now : Time) :
    (supervision.expire now).IsOverdue := by
  obtain ⟨messages, finished⟩ := overdue
  exact ⟨messages, by rw [terms_expire, phase_expire_of_over finished]⟩

theorem isOver_exit {shutdown : Shutdown} (unfinished : shutdown.isOver = false)
    (status : ExitStatus) : (shutdown.exit status).isOver = true := by
  unfold Shutdown.exit
  cases stage : shutdown.stage <;> simp_all [Shutdown.isOver]

/-- A process that the run has begun to end is being ended, unless its time was up at once. -/
def IsStopped (supervision : Supervision) : Prop :=
  supervision.IsOverdue ∨ supervision.IsEnding

/-- Signals do not reap a process; one that fails ends the run. -/
theorem isStopped_pursue {shutdown : Shutdown}
    (unreaped : ∀ status, shutdown.stage ≠ .reaped status) (signals : List Signal) :
    (supervision.pursue signals shutdown).IsStopped := by
  unfold pursue
  split
  · exact .inl ⟨_, rfl⟩
  · rename_i other
    refine .inr ⟨shutdown, rfl, ?_⟩
    cases stage : shutdown.stage with
    | reaped status => exact absurd stage (unreaped status)
    | failed cause => exact absurd stage (other cause)
    | _ => simp [Shutdown.isOver, stage]

theorem stage_expire_ne {shutdown : Shutdown} (unfinished : shutdown.isOver = false) (now : Time)
    (answer : Delivery) (status : ExitStatus) :
    (shutdown.expire now answer).stage ≠ .reaped status := by
  have before : ∀ status, (shutdown.timeUp now).stage ≠ .reaped status := by
    unfold Shutdown.timeUp
    split
    · split
      · exact nofun
      · rename_i patient _
        simp [patient]
    · intro status reaped
      simp [Shutdown.isOver, reaped] at unfinished
  unfold Shutdown.expire Shutdown.force
  split
  · cases answer <;> nofun
  · exact before status

theorem IsEnding.expireGrace (ending : supervision.IsEnding) (now : Time) :
    (supervision.expireGrace now).IsStopped := by
  obtain ⟨shutdown, stopping, unfinished⟩ := ending
  simp only [Supervision.expireGrace, stopping]
  exact isStopped_pursue (stage_expire_ne unfinished now supervision.answers.kill) _

theorem IsOverdue.expireGrace (overdue : supervision.IsOverdue) (now : Time) :
    (supervision.expireGrace now).IsOverdue := by
  obtain ⟨messages, finished⟩ := overdue
  exact ⟨messages, by simp [Supervision.expireGrace, finished]⟩

theorem IsStopped.expireGrace (stopped : supervision.IsStopped) (now : Time) :
    (supervision.expireGrace now).IsStopped := by
  rcases stopped with overdue | ending
  · exact .inl (overdue.expireGrace now)
  · exact ending.expireGrace now

theorem IsEnding.expire (ending : supervision.IsEnding) (now : Time) :
    (supervision.expire now).IsStopped := by
  have expired : supervision.expireDeadline = supervision := by
    obtain ⟨shutdown, stopping, _⟩ := ending
    simp [expireDeadline, stopping]
  rw [Supervision.expire, expired, ite_self]
  exact ending.expireGrace now

/-- Nothing but its exit ends a process that is being ended. -/
theorem IsEnding.hear_of_not_exited (ending : supervision.IsEnding) {event : ProcessEvent}
    (sound : event.Sound) (other : ∀ status, event ≠ .exited status) :
    (supervision.hear event).IsEnding := by
  obtain ⟨shutdown, stopping, unfinished⟩ := ending
  have after : (supervision.apply event).phase = .stopping shutdown := by
    cases event with
    | wrote channel bytes => simpa [Supervision.apply] using stopping
    | closed channel => simpa [Supervision.apply] using stopping
    | drained channel => simpa [Supervision.apply] using stopping
    | lost channel => exact absurd sound id
    | exited status => exact absurd rfl (other status)
    | waitFailed cause => exact absurd sound id
  have busy (status : ExitStatus) : (supervision.apply event).phase ≠ .draining status := by
    simp [after]
  refine ⟨shutdown, ?_, unfinished⟩
  rw [Supervision.hear, conclude_of_not_draining busy, phase_settle_of_not_draining busy, after]

theorem IsEnding.hear_exited (ending : supervision.IsEnding) (status : ExitStatus) :
    (supervision.hear (.exited status)).IsOverdue := by
  obtain ⟨shutdown, stopping, unfinished⟩ := ending
  have after : supervision.apply (.exited status) = supervision.cutOff := by
    simp [Supervision.apply, Supervision.exit, follow, stopping, isOver_exit unfinished]
  have busy (other : ExitStatus) : supervision.cutOff.phase ≠ .draining other := by
    simp [cutOff]
  refine ⟨supervision.messages, ?_⟩
  rw [terms_hear, Supervision.hear, after, conclude_of_not_draining busy,
    phase_settle_of_not_draining busy]
  rfl

/-- Past the deadline a run without an end of its own waits for the process and times out. -/
def Late (heard : List ProcessEvent) (supervision : Supervision) : Prop :=
  supervision.IsOverdue ∨ exit? heard = none ∧ supervision.IsEnding

theorem Late.expire {heard : List ProcessEvent} (late : Late heard supervision) (now : Time) :
    Late heard (supervision.expire now) := by
  rcases late with overdue | ⟨unheard, ending⟩
  · exact .inl (overdue.expire now)
  · exact (ending.expire now).imp_right fun stopped => ⟨unheard, stopped⟩

theorem Late.hear {heard : List ProcessEvent} (late : Late heard supervision)
    {event : ProcessEvent} (sound : event.Sound) :
    Late (heard ++ [event]) (supervision.hear event) := by
  rcases late with overdue | ⟨unheard, ending⟩
  · exact .inl (overdue.hear event)
  · by_cases exits : ∃ status, event = .exited status
    · obtain ⟨status, rfl⟩ := exits
      exact .inl (ending.hear_exited status)
    · have other := not_exists.mp exits
      exact .inr ⟨(exit?_concat_of_ne other).trans unheard, ending.hear_of_not_exited sound other⟩

theorem Late.through {heard : List ProcessEvent} (late : Late heard supervision)
    {timeline : List (Time × ProcessEvent)} (sound : ∀ item ∈ timeline, item.2.Sound) :
    Late (heard ++ timeline.map Prod.snd) (supervision.through timeline) := by
  induction timeline generalizing heard supervision with
  | nil => simpa [Supervision.through] using late
  | cons item timeline ih =>
      have next := (late.expire item.1).hear (sound item List.mem_cons_self)
      have rest := ih next fun later member => sound later (List.mem_cons_of_mem _ member)
      rw [List.append_assoc] at rest
      exact rest

/-! ## The whole timeline -/

/-- The process has exited and both pipes have ended. -/
structure Done (past : List ProcessEvent) (status : ExitStatus) : Prop where
  exited : exit? past = some status
  closed : BothClosed past

/-- The run has ended with the exit status of its process. -/
def IsClassified (status : ExitStatus) (supervision : Supervision) : Prop :=
  ∃ messages, supervision.phase =
    .over (classify supervision.terms.program status.code messages)

theorem IsClassified.expire {status : ExitStatus} (done : supervision.IsClassified status)
    (now : Time) : (supervision.expire now).IsClassified status := by
  obtain ⟨messages, finished⟩ := done
  exact ⟨messages, by rw [terms_expire, phase_expire_of_over finished]⟩

theorem IsClassified.through {status : ExitStatus} (done : supervision.IsClassified status)
    (timeline : List (Time × ProcessEvent)) :
    (supervision.through timeline).IsClassified status := by
  obtain ⟨messages, finished⟩ := done
  exact ⟨messages, by rw [terms_through, phase_through_of_over finished]⟩

theorem AtWork.through (works : AtWork past supervision) (rests : supervision.Rests)
    {timeline : List (Time × ProcessEvent)} (sound : ∀ item ∈ timeline, item.2.Sound)
    (early : ∀ item ∈ timeline, item.1 ≤ supervision.deadline) :
    AtWork (past ++ timeline.map Prod.snd) (supervision.through timeline) ∧
      (supervision.through timeline).Rests := by
  induction timeline generalizing past supervision with
  | nil => simpa [Supervision.through] using ⟨works, rests⟩
  | cons item timeline ih =>
      have next := works.observe (early item List.mem_cons_self) (sound item List.mem_cons_self)
      have same : (supervision.observe item.1 item.2).deadline = supervision.deadline :=
        congrArg Terms.deadline (terms_observe supervision item.1 item.2)
      have rest := ih next (rests_observe item.1 item.2 supervision)
        (fun later member => sound later (List.mem_cons_of_mem _ member))
        (fun later member => same ▸ early later (List.mem_cons_of_mem _ member))
      rw [List.append_assoc] at rest
      exact rest

theorem AtWork.isClassified (works : AtWork past supervision) (rests : supervision.Rests)
    {status : ExitStatus} (done : Done past status) : supervision.IsClassified status :=
  (works.over_iff rests done.exited).1 done.closed

/-- What is not done at the deadline is late from then on. -/
theorem AtWork.late (works : AtWork past supervision) (rests : supervision.Rests)
    (undone : ∀ status, ¬ Done past status) {now : Time} (past_due : supervision.deadline < now) :
    Late past (supervision.expire now) := by
  rw [Supervision.expire, if_pos past_due]
  cases heard : exit? past with
  | none =>
      have stopped : supervision.expireDeadline.IsStopped := by
        simp only [expireDeadline, works.running heard]
        refine isStopped_pursue (fun status => ?_) _
        cases supervision.answers.term <;> nofun
      exact (stopped.expireGrace now).imp_right fun ending => ⟨heard, ending⟩
  | some status =>
      have draining := (works.over_iff rests heard).2 fun closed => undone status ⟨heard, closed⟩
      refine .inl ⟨supervision.messages, ?_⟩
      simp only [expireDeadline, draining, Supervision.expireGrace, cutOff]
      rfl

/-- The part of a timeline up to an instant, the instant included. -/
def upTo (instant : Time) (timeline : List (Time × ProcessEvent)) : List (Time × ProcessEvent) :=
  timeline.filter fun item => item.1 ≤ instant

/-- The part of a timeline after an instant. -/
def afterwards (instant : Time) (timeline : List (Time × ProcessEvent)) :
    List (Time × ProcessEvent) :=
  timeline.filter fun item => instant < item.1

theorem upTo_append_afterwards {timeline : List (Time × ProcessEvent)}
    (sorted : timeline.Pairwise fun earlier later => earlier.1 ≤ later.1) (instant : Time) :
    upTo instant timeline ++ afterwards instant timeline = timeline := by
  induction timeline with
  | nil => rfl
  | cons item timeline ih =>
      obtain ⟨first, sorted⟩ := List.pairwise_cons.mp sorted
      have rest := ih sorted
      simp only [upTo, afterwards, List.filter_cons] at rest ⊢
      by_cases early : item.1 ≤ instant
      · simp only [early, decide_true, if_true, Nat.not_lt.mpr early, decide_false]
        simpa using rest
      · have none : timeline.filter (fun item => item.1 ≤ instant) = [] := by
          rw [List.filter_eq_nil_iff]
          intro later member
          have after := Nat.lt_of_lt_of_le (Nat.lt_of_not_le early) (first later member)
          simpa using after
        rw [none] at rest ⊢
        simp only [early, Nat.lt_of_not_le early, decide_true, decide_false, if_true]
        simpa using rest

theorem AtWork.through_upTo (works : AtWork past supervision) (rests : supervision.Rests)
    {timeline : List (Time × ProcessEvent)} (sound : ∀ item ∈ timeline, item.2.Sound) :
    AtWork (past ++ (upTo supervision.deadline timeline).map Prod.snd)
        (supervision.through (upTo supervision.deadline timeline)) ∧
      (supervision.through (upTo supervision.deadline timeline)).Rests := by
  refine works.through rests (fun item member => sound item (List.mem_filter.mp member).1) ?_
  intro item member
  simpa using (List.mem_filter.mp member).2

/-- A process that is done by its deadline ends its run with its status. -/
theorem AtWork.isClassified_elapse_through (works : AtWork [] supervision)
    (rests : supervision.Rests)
    {timeline : List (Time × ProcessEvent)} (sound : ∀ item ∈ timeline, item.2.Sound)
    (sorted : timeline.Pairwise fun earlier later => earlier.1 ≤ later.1) {status : ExitStatus}
    (done : Done ((upTo supervision.deadline timeline).map Prod.snd) status) (horizon : Time) :
    ((supervision.through timeline).elapse horizon).IsClassified status := by
  obtain ⟨known, resting⟩ := works.through_upTo rests sound
  have classified := (known.isClassified resting done).through
    (afterwards supervision.deadline timeline)
  rw [← through_append, upTo_append_afterwards sorted] at classified
  exact classified.expire _

/--
At an instant, nothing is drawn yet for a process that was not done by its
deadline, or its run is late.
-/
def Undecided (heard past : List ProcessEvent) (horizon : Time) (supervision : Supervision) :
    Prop :=
  (AtWork heard supervision ∧ supervision.Rests ∧ horizon < supervision.deadline) ∨
    Late past supervision

theorem Undecided.elapse {heard : List ProcessEvent} {horizon : Time}
    (undecided : Undecided heard past horizon supervision) :
    Undecided heard past horizon (supervision.elapse horizon) := by
  rcases undecided with ⟨works, rests, early⟩ | late
  · rw [Supervision.elapse, works.expire early]
    exact .inl ⟨works, rests, early⟩
  · exact .inr (late.expire (horizon + 1))

/-- A process that was not done by its deadline has no other end than that its time was up. -/
theorem Undecided.outcome? {heard : List ProcessEvent} {horizon : Time}
    (undecided : Undecided heard past horizon supervision)
    (undone : ∀ status, ¬ Done heard status) :
    supervision.outcome? = none ∨ supervision.IsOverdue := by
  rcases undecided with ⟨works, rests, _⟩ | overdue | ⟨_, shutdown, stopping, _⟩
  · left
    cases known : exit? heard with
    | none => simp [Supervision.outcome?, works.running known]
    | some status =>
        have draining := (works.over_iff rests known).2 fun closed => undone status ⟨known, closed⟩
        simp [Supervision.outcome?, draining]
  · exact .inr overdue
  · simp [Supervision.outcome?, stopping]

/-- Once the process has exited and the deadline has passed, its time was up. -/
theorem Undecided.isOverdue {heard : List ProcessEvent} {horizon : Time}
    (undecided : Undecided heard past horizon supervision) (exits : exit? past ≠ none)
    (past_due : supervision.deadline ≤ horizon) : supervision.IsOverdue := by
  rcases undecided with ⟨_, _, early⟩ | overdue | ⟨unheard, _⟩
  · exact absurd early (Nat.not_lt.mpr past_due)
  · exact overdue
  · exact absurd unheard exits

/-- What is late at every instant after a deadline is late once something has happened then. -/
theorem late_through {deadline : Time}
    (late : ∀ {now : Time}, deadline < now → Late past (supervision.expire now))
    {item : Time × ProcessEvent} {more : List (Time × ProcessEvent)}
    (sound : ∀ other ∈ item :: more, other.2.Sound) (after : deadline < item.1) :
    Late (past ++ (item :: more).map Prod.snd) (supervision.through (item :: more)) := by
  have next := (late after).hear (sound item List.mem_cons_self)
  have ended := next.through fun other member => sound other (List.mem_cons_of_mem _ member)
  rw [List.append_assoc] at ended
  exact ended

/-- A process that is not done by its deadline is undecided at every instant. -/
theorem AtWork.undecided_elapse_through (works : AtWork [] supervision) (rests : supervision.Rests)
    {timeline : List (Time × ProcessEvent)} (sound : ∀ item ∈ timeline, item.2.Sound)
    (sorted : timeline.Pairwise fun earlier later => earlier.1 ≤ later.1)
    (undone : ∀ status, ¬ Done ((upTo supervision.deadline timeline).map Prod.snd) status)
    (horizon : Time) :
    Undecided ((upTo supervision.deadline timeline).map Prod.snd) (timeline.map Prod.snd) horizon
      ((supervision.through timeline).elapse horizon) := by
  obtain ⟨known, resting⟩ := works.through_upTo rests sound
  rw [List.nil_append] at known
  have deadline : (supervision.through (upTo supervision.deadline timeline)).deadline =
      supervision.deadline := congrArg Terms.deadline (terms_through _)
  have late {now : Time} (after : supervision.deadline < now) :=
    known.late resting undone (lt_of_eq_of_lt deadline after)
  have whole := upTo_append_afterwards sorted supervision.deadline
  cases rest : afterwards supervision.deadline timeline with
  | nil =>
      rw [rest, List.append_nil] at whole
      rw [whole] at known resting deadline late ⊢
      rcases Nat.lt_or_ge horizon supervision.deadline with early | past_due
      · have early : horizon < (supervision.through timeline).deadline := deadline.symm ▸ early
        rw [Supervision.elapse, known.expire early]
        exact .inl ⟨known, resting, early⟩
      · exact .inr (late (Nat.lt_succ_of_le past_due))
  | cons item more =>
      have kept {other : Time × ProcessEvent} (member : other ∈ item :: more) :
          other ∈ timeline ∧ supervision.deadline < other.1 := by
        rw [← rest] at member
        simpa [afterwards] using member
      have ended := late_through late (fun other member => sound other (kept member).1)
        (kept List.mem_cons_self).2
      rw [← rest, ← List.map_append, ← through_append, whole] at ended
      exact .inr (ended.expire (horizon + 1))

end Supervision

namespace Runner

variable (runner : Runner) (program : String) (now limit : Time) (answers : Answers)

/-- At its start a supervision has heard nothing. -/
theorem atWork_supervise :
    Supervision.AtWork [] (runner.supervise program now limit answers) where
  hears channel := by
    have silent : (.closed channel ∈ ([] : List ProcessEvent)) = False := by simp
    rw [silent]
    cases channel <;> exact Output.Drain.Hears.start runner.cap
  running _ := rfl
  exited _ known := by cases known

theorem rests_supervise : (runner.supervise program now limit answers).Rests where
  waits channel := by cases channel <;> rfl
  concluded := rfl

end Runner

end Turnstile
