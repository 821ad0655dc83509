import Turnstile.Proofs.Child.Timeline

/-!
# Runs in small moves

A run is cut into the smallest things that happen to it: one event, time that
passes, a drain that is told to stop, and the caller giving up.  All that is done
to a supervision is made of them.  Most of them leave the drains to themselves,
and no outcome is told before the drains that fed it are over.
-/

namespace Turnstile

open Output (Channel Drain)

/-- The captured output that comes with an outcome, if any does. -/
def Outcome.messages? : Outcome → Option String
  | .ok completion => some completion.messages
  | .error failure => failure.messages?

namespace Supervision

@[simp] theorem messages?_classify (program : String) (code : Int) (messages : String) :
    Outcome.messages? (classify program code messages) = some messages := by
  unfold classify
  split <;> rfl

/-! ## Moves -/

/-- One of the smallest things that happen to a supervision. -/
inductive Move where
  /-- An event, which ends the run if nothing is left to wait for. -/
  | hears (event : ProcessEvent)
  /-- Time passes, up to an instant. -/
  | waits (now : Time)
  /-- A drain is told to stop. -/
  | stops (channel : Channel)
  /-- The caller gives up. -/
  | leaves
  deriving DecidableEq, Repr

def move (supervision : Supervision) : Move → Supervision
  | .hears event => (supervision.apply event).conclude
  | .waits now => supervision.expire now
  | .stops channel => supervision.setDrain channel (supervision.drain channel).abort
  | .leaves => supervision.abandon

def run (supervision : Supervision) (moves : List Move) : Supervision :=
  moves.foldl move supervision

theorem run_append (supervision : Supervision) (moves more : List Move) :
    supervision.run (moves ++ more) = (supervision.run moves).run more :=
  List.foldl_append

/-- The events among some moves. -/
def heard (moves : List Move) : List ProcessEvent :=
  moves.filterMap fun
    | .hears event => some event
    | _ => none

@[simp] theorem heard_append (moves more : List Move) :
    heard (moves ++ more) = heard moves ++ heard more :=
  List.filterMap_append

theorem heard_cons (first : Move) (moves : List Move) :
    heard (first :: moves) = heard [first] ++ heard moves :=
  heard_append [first] moves

/-- The drains run on by steps of their own. -/
theorem exists_run_settle (supervision : Supervision) :
    ∃ steps : List Channel,
      supervision.settle = supervision.run (steps.map fun channel => .hears (.drained channel)) := by
  induction supervision using settle.induct with
  | case1 supervision ready ih =>
      obtain ⟨steps, same⟩ := ih
      exact ⟨.out :: steps, by rw [settle, dif_pos ready, same]; rfl⟩
  | case2 supervision waits ready ih =>
      obtain ⟨steps, same⟩ := ih
      exact ⟨.err :: steps, by rw [settle, dif_neg waits, dif_pos ready, same]; rfl⟩
  | case3 supervision out err => exact ⟨[], by rw [settle, dif_neg out, dif_neg err]; rfl⟩

/-- To see an event is to let time pass, to hear of the event, and to let the drains run on. -/
theorem exists_run_observe (now : Time) (event : ProcessEvent) (supervision : Supervision) :
    ∃ steps : List Channel, supervision.observe now event = supervision.run
      (.waits now :: .hears event :: steps.map fun channel => .hears (.drained channel)) :=
  exists_run_settle (supervision.step now event)

/-! ## What an outcome tells -/

/-- The output that comes with an outcome is what is stored, and no drain stores any more. -/
def Tells (outcome : Outcome) (supervision : Supervision) : Prop :=
  ∀ messages, Outcome.messages? outcome = some messages →
    messages = supervision.messages ∧ ∀ channel, (supervision.drain channel).isOver = true

variable {outcome : Outcome} {supervision later last : Supervision}

theorem messages_eq_of_stored
    (stored : ∀ channel, (later.drain channel).stored = (supervision.drain channel).stored) :
    later.messages = supervision.messages := by
  have out : later.out.stored = supervision.out.stored := stored .out
  have err : later.err.stored = supervision.err.stored := stored .err
  rw [Supervision.messages, Supervision.messages, lines, lines, out, err]

theorem Tells.of_told (tells : supervision.Tells outcome)
    (told : ∀ channel, (supervision.drain channel).Told (later.drain channel)) :
    later.Tells outcome := by
  intro messages found
  obtain ⟨same, stopped⟩ := tells messages found
  refine ⟨?_, fun channel => (told channel).isOver (stopped channel)⟩
  rw [same, messages_eq_of_stored fun channel => (told channel).stored]

/-! ## Moves that leave the drains to themselves -/

/-- The supervision goes on, and does no more to its drains than tell them to stop. -/
structure LeavesDrains (supervision later : Supervision) : Prop where
  terms : later.terms = supervision.terms
  sink : later.sink = supervision.sink
  drain : ∀ channel, later.drain channel = supervision.drain channel ∨
    later.drain channel = (supervision.drain channel).abort
  outcome : ∀ outcome, later.phase = .over outcome →
    supervision.phase = .over outcome ∨ later.Tells outcome

namespace LeavesDrains

theorem told (leaves : LeavesDrains supervision later) (channel : Channel) :
    (supervision.drain channel).Told (later.drain channel) := by
  rcases leaves.drain channel with same | stopped
  · exact same ▸ .refl _
  · exact stopped ▸ Drain.told_abort _

theorem of_eq (terms : later.terms = supervision.terms) (sink : later.sink = supervision.sink)
    (out : later.out = supervision.out) (err : later.err = supervision.err)
    (outcome : ∀ outcome, later.phase = .over outcome →
      supervision.phase = .over outcome ∨ later.Tells outcome) :
    LeavesDrains supervision later where
  terms := terms
  sink := sink
  drain channel := by
    cases channel with
    | out => exact .inl out
    | err => exact .inl err
  outcome := outcome

theorem refl (supervision : Supervision) : LeavesDrains supervision supervision :=
  .of_eq rfl rfl rfl rfl fun _ => .inl

theorem trans (one : LeavesDrains supervision later) (other : LeavesDrains later last) :
    LeavesDrains supervision last where
  terms := other.terms.trans one.terms
  sink := other.sink.trans one.sink
  drain channel := by
    rcases one.drain channel with first | first <;> rcases other.drain channel with second | second <;>
      rw [second, first]
    · exact .inl rfl
    · exact .inr rfl
    · exact .inr rfl
    · right
      unfold Drain.abort
      split <;> simp_all
  outcome outcome finished := by
    rcases other.outcome outcome finished with finished | tells
    · exact (one.outcome outcome finished).imp_right fun tells => tells.of_told other.told
    · exact .inr tells

end LeavesDrains

variable (supervision : Supervision)

/-- Told to stop, the drains have stored all that the outcome tells. -/
theorem leavesDrains_cutOff : LeavesDrains supervision supervision.cutOff where
  terms := rfl
  sink := rfl
  drain channel := by cases channel <;> exact .inr rfl
  outcome outcome finished := by
    cases finished
    refine .inr fun messages told => ⟨?_, fun channel => ?_⟩
    · cases told
      simp [cutOff, messages, lines, (Drain.told_abort _).stored]
    · cases channel <;> exact Drain.isOver_abort _

theorem leavesDrains_conclude : LeavesDrains supervision supervision.conclude := by
  unfold conclude
  split
  · split
    · rename_i status draining ended
      refine .of_eq rfl rfl rfl rfl fun outcome finished => .inr fun messages told => ?_
      rw [Bool.and_eq_true] at ended
      cases finished
      rw [messages?_classify] at told
      cases told
      refine ⟨rfl, fun channel => ?_⟩
      cases channel with
      | out => exact ended.1
      | err => exact ended.2
    · exact .refl supervision
  · exact .refl supervision

theorem leavesDrains_letGo : LeavesDrains supervision supervision.letGo :=
  (leavesDrains_cutOff supervision).trans (.of_eq rfl rfl rfl rfl fun _ => .inl)

theorem leavesDrains_pursue (signals : List Signal) (shutdown : Shutdown) :
    LeavesDrains supervision (supervision.pursue signals shutdown) := by
  unfold pursue
  split
  · let tried := { supervision with signals := supervision.signals ++ signals }
    have leaves : LeavesDrains supervision tried := .of_eq rfl rfl rfl rfl fun _ => .inl
    exact leaves.trans (leavesDrains_letGo tried)
  · exact .of_eq rfl rfl rfl rfl nofun

theorem leavesDrains_expireDeadline : LeavesDrains supervision supervision.expireDeadline := by
  unfold expireDeadline
  split
  · let warned := { supervision with log := supervision.log.push timeoutWarning }
    have leaves : LeavesDrains supervision warned := .of_eq rfl rfl rfl rfl fun _ => .inl
    exact leaves.trans (leavesDrains_pursue warned _ _)
  · have warned : LeavesDrains supervision
        { supervision with log := supervision.log.push openStreamsWarning } :=
      .of_eq rfl rfl rfl rfl fun _ => .inl
    exact warned.trans (leavesDrains_cutOff _)
  · exact .refl supervision

theorem leavesDrains_expireGrace (now : Time) :
    LeavesDrains supervision (supervision.expireGrace now) := by
  unfold expireGrace
  split
  · exact leavesDrains_pursue supervision _ _
  · exact .refl supervision

theorem leavesDrains_expire (now : Time) : LeavesDrains supervision (supervision.expire now) := by
  unfold expire
  split
  · exact (leavesDrains_expireDeadline supervision).trans (leavesDrains_expireGrace _ now)
  · exact leavesDrains_expireGrace supervision now

theorem leavesDrains_exit (status : ExitStatus) :
    LeavesDrains supervision (supervision.exit status) := by
  unfold exit
  split
  · exact .of_eq rfl rfl rfl rfl nofun
  · unfold follow
    split
    · exact leavesDrains_cutOff supervision
    · exact .of_eq rfl rfl rfl rfl nofun
  · exact .refl supervision

theorem leavesDrains_failWait (cause : String) :
    LeavesDrains supervision (supervision.failWait cause) := by
  unfold failWait
  split
  · refine .of_eq rfl rfl rfl rfl fun outcome finished => ?_
    cases finished
    exact .inr nofun
  · exact leavesDrains_letGo supervision
  · exact .refl supervision

theorem leavesDrains_abandon : LeavesDrains supervision supervision.abandon := by
  unfold abandon
  split
  · exact .refl supervision
  · exact .refl supervision
  · exact .of_eq rfl rfl rfl rfl nofun
  · exact .of_eq rfl rfl rfl rfl nofun

theorem leavesDrains_stop (channel : Channel) :
    LeavesDrains supervision (supervision.move (.stops channel)) := by
  refine ⟨terms_setDrain _ _ _, by cases channel <;> rfl, fun other => ?_,
    fun _ finished => .inl (phase_setDrain supervision channel _ ▸ finished)⟩
  by_cases same : other = channel
  · subst same
    exact .inr (drain_setDrain_self _ _ _)
  · exact .inl (drain_setDrain_of_ne _ same _)

@[simp] theorem terms_move (move : Move) : (supervision.move move).terms = supervision.terms := by
  cases move with
  | hears event => exact (terms_conclude _).trans (terms_apply _ _)
  | waits now => exact terms_expire _ now
  | stops channel => exact (leavesDrains_stop _ channel).terms
  | leaves => exact (leavesDrains_abandon _).terms

end Supervision

end Turnstile
