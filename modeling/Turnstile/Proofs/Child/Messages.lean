import Turnstile.Proofs.Child.Capture

/-!
# The messages of a run that ends in time

A process that has exited and ended both its pipes by its deadline is told of
with all the lines that it wrote, however its writes were cut and came between
each other.  The lines are joined by line feeds and hold none, so that they can
be told apart again.
-/

namespace Turnstile.Supervision

open Output (Channel Drain SinkLine onChannel)

/-- A move of a run up to its deadline in which nothing fails and no one interferes. -/
def Move.IsTimely (deadline : Time) : Move → Prop
  | .hears event => event.Sound
  | .waits now => now ≤ deadline
  | .stops _ => False
  | .leaves => False

variable {past : List ProcessEvent} {supervision : Supervision}

/-! ## Drains that nothing cuts off -/

/-- Before its deadline a supervision knows its process, its drains go on, and an end is drawn. -/
structure OnTime (past : List ProcessEvent) (supervision : Supervision) : Prop where
  works : AtWork past supervision
  intact : ∀ channel, (supervision.drain channel).IsIntact
  concluded : supervision.conclude = supervision

theorem drain_conclude (supervision : Supervision) (channel : Channel) :
    supervision.conclude.drain channel = supervision.drain channel := by
  unfold conclude
  split
  · split <;> rfl
  · rfl

/-- A process that is not being ended leaves its drains to go on when it exits. -/
theorem AtWork.drain_exit (works : AtWork past supervision) (status : ExitStatus)
    (channel : Channel) : (supervision.exit status).drain channel = supervision.drain channel := by
  cases heard : exit? past with
  | none => cases channel <;> simp [Supervision.exit, works.running heard, drain]
  | some first =>
      rcases works.exited first heard with draining | ⟨_, messages, finished⟩
      · simp [Supervision.exit, draining]
      · simp [Supervision.exit, finished]

namespace OnTime

theorem intact_setDrain (onTime : OnTime past supervision) {channel : Channel} {drain : Drain}
    (own : drain.IsIntact) (other : Channel) :
    ((supervision.setDrain channel drain).drain other).IsIntact :=
  forall_drain_setDrain _ (fun _ drain => drain.IsIntact) own (fun known _ => onTime.intact known)
    other

theorem intact_drainStep (onTime : OnTime past supervision) (channel other : Channel) :
    ((supervision.drainStep channel).drain other).IsIntact :=
  forall_drain_drainStep _ (fun _ drain => drain.IsIntact)
    (fun _ stepped => Drain.isIntact_of_step? stepped) onTime.intact other

theorem intact_apply (onTime : OnTime past supervision) {event : ProcessEvent}
    (sound : event.Sound) (channel : Channel) :
    ((supervision.apply event).drain channel).IsIntact := by
  cases event with
  | wrote pipe bytes => exact onTime.intact_setDrain ((onTime.intact pipe).feed bytes) channel
  | closed ended =>
      have own : (supervision.drain ended).close.IsIntact := onTime.intact ended
      exact onTime.intact_setDrain own channel
  | drained stepping => exact onTime.intact_drainStep stepping channel
  | lost failing => exact absurd sound id
  | exited status =>
      change ((supervision.exit status).drain channel).IsIntact
      rw [onTime.works.drain_exit]
      exact onTime.intact channel
  | waitFailed cause => exact absurd sound id

theorem move (onTime : OnTime past supervision) {move : Move}
    (timely : move.IsTimely supervision.deadline) :
    OnTime (past ++ heard [move]) (supervision.move move) := by
  cases move with
  | hears event =>
      refine ⟨(onTime.works.apply timely).conclude, fun channel => ?_, conclude_conclude _⟩
      change ((supervision.apply event).conclude.drain channel).IsIntact
      rw [drain_conclude]
      exact onTime.intact_apply timely channel
  | waits now =>
      change OnTime (past ++ []) (supervision.expire now)
      rwa [onTime.works.expire timely, List.append_nil]
  | stops channel => exact absurd timely id
  | leaves => exact absurd timely id

theorem run (onTime : OnTime past supervision) {moves : List Move}
    (timely : ∀ move ∈ moves, move.IsTimely supervision.deadline) :
    OnTime (past ++ heard moves) (supervision.run moves) := by
  induction moves generalizing past supervision with
  | nil => exact (List.append_nil past).symm ▸ onTime
  | cons first moves ih =>
      have next := onTime.move (timely first List.mem_cons_self)
      have same : (supervision.move first).deadline = supervision.deadline :=
        congrArg Terms.deadline (terms_move supervision first)
      have rest := ih next fun later member => same ▸ timely later (List.mem_cons_of_mem _ member)
      rw [List.append_assoc, ← heard_append] at rest
      exact rest

theorem settle (onTime : OnTime past supervision) : OnTime past supervision.settle := by
  refine settle_keeps (OnTime past) (fun later channel onTime => ?_) onTime
  refine ⟨(onTime.works.drainStep channel).conclude, fun other => ?_, conclude_conclude _⟩
  rw [drain_conclude]
  exact onTime.intact_drainStep channel other

theorem rests_settle (onTime : OnTime past supervision) : supervision.settle.Rests :=
  ⟨fun channel => step?_drain_settle supervision channel, onTime.settle.concluded⟩

/-- Once the pipes have ended and the drains have run on, they have read all there is. -/
theorem finished_settle (onTime : OnTime past supervision) (closed : BothClosed past)
    (channel : Channel) : (supervision.settle.drain channel).status = .finished :=
  (onTime.settle.intact channel).finished (onTime.settle.works.hears channel) (closed channel)
    (step?_drain_settle supervision channel)

end OnTime

/-! ## The end of a run -/

/-- A run that has ended with all that its process wrote. -/
structure Complete (program : String) (status : ExitStatus) (streams : Channel → List String)
    (supervision : Supervision) : Prop where
  outcome : supervision.outcome? = some (classify program status.code
    ("\n".intercalate (streams .out ++ streams .err)))
  clear : ∀ text ∈ streams .out ++ streams .err, '\n' ∉ text.toList
  split : streams .out ++ streams .err ≠ [] →
    Output.splitLines ("\n".intercalate (streams .out ++ streams .err)) =
      streams .out ++ streams .err
  given : ∀ channel, onChannel channel supervision.sink.toList =
    (streams channel).map (SinkLine.mk program channel)

theorem lineFeed_not_mem_of_mem_linesWritten {cap : Nat} {events : List ProcessEvent}
    {text : String}
    (member : text ∈ linesWritten cap events .out ++ linesWritten cap events .err) :
    '\n' ∉ text.toList :=
  (List.mem_append.mp member).elim Output.lineFeed_not_mem_of_mem_lines
    Output.lineFeed_not_mem_of_mem_lines

/--
A process that has exited and ended both its pipes by its deadline ends its run
with its lines, those of standard output first, and its sink was given the same
lines; the drains may take their steps whenever they come to it.
-/
theorem complete_settle (runner : Runner) (program : String) (now limit : Time) (answers : Answers)
    {moves : List Move} {status : ExitStatus} (timely : ∀ move ∈ moves, move.IsTimely (now + limit))
    (done : Done (heard moves) status) (ends : PipesEnd (heard moves)) :
    Complete program status (linesWritten runner.cap (heard moves))
      ((runner.supervise program now limit answers).run moves).settle := by
  have start : OnTime [] (runner.supervise program now limit answers) :=
    ⟨runner.atWork_supervise program now limit answers,
      fun channel => by cases channel <;> exact .inl rfl,
      rfl⟩
  have onTime := start.run timely
  have captures := ((captures_supervise runner program now limit answers).run ends).settle
  rw [List.nil_append] at onTime captures
  have all (channel : Channel) :=
    (captures.follows channel).captures.lines_of_finished (onTime.finished_settle done.closed channel)
  have stored : ((runner.supervise program now limit answers).run moves).settle.lines =
      linesWritten runner.cap (heard moves) .out ++ linesWritten runner.cap (heard moves) .err := by
    have out := (all .out).2
    have err := (all .err).2
    simp only [drain] at out err
    rw [lines, out, err]
    rfl
  constructor
  case outcome =>
    obtain ⟨messages, finished⟩ :=
      (onTime.settle.works.over_iff onTime.rests_settle done.exited).1 done.closed
    have told := (captures.outcome _ finished messages (messages?_classify ..)).1
    rw [outcome?_eq_some_iff, finished, captures.program_eq, told, Supervision.messages, stored]
  case clear => exact fun text => lineFeed_not_mem_of_mem_linesWritten
  case split =>
    exact Output.splitLines_intercalate fun text => lineFeed_not_mem_of_mem_linesWritten
  case given =>
    intro channel
    exact (captures.follows channel).sink_of_finished (onTime.finished_settle done.closed channel)

/-- Two streams that come between each other, cut inside a line and inside a character. -/
def twoStreams : List Move :=
  [.hears (.wrote .out [97, 13]), .hears (.drained .out), .hears (.wrote .err [98, 195]),
    .waits 3, .hears (.wrote .out [10, 99, 99]), .hears (.drained .out), .hears (.drained .err),
    .hears (.exited (.exited 1)), .hears (.wrote .err [169, 10, 10]), .hears (.closed .err),
    .waits 10, .hears (.closed .out)]

theorem complete_settle_twoStreams :
    (∀ move ∈ twoStreams, move.IsTimely (0 + 10)) ∧ Done (heard twoStreams) (.exited 1) ∧
      PipesEnd (heard twoStreams) ∧
      Complete "tool" (.exited 1) (linesWritten 3 (heard twoStreams))
        ((Runner.supervise { cap := 3 } "tool" 0 10).run twoStreams).settle := by
  have timely : ∀ move ∈ twoStreams, move.IsTimely (0 + 10) := by
    simp [twoStreams, Move.IsTimely, ProcessEvent.Sound]
  have done : Done (heard twoStreams) (.exited 1) :=
    ⟨rfl, fun channel => by cases channel <;> simp [heard, twoStreams]⟩
  have ends : PipesEnd (heard twoStreams) := by simp [PipesEnd, heard, twoStreams]
  exact ⟨timely, done, ends, complete_settle { cap := 3 } "tool" 0 10 {} timely done ends⟩

end Turnstile.Supervision
