import Mathlib.Data.List.Induction
import Turnstile.Child.Shutdown

/-!
# Custody of a child

A child that has to end is in custody until it is reaped.  Time passes, the child exits
whenever it likes, if at all, and its keeper looks at it now and then.  A look sees first
whether the child has exited, and only then whether its time has run out.  The signal that
ends it by force is a move of its own: the child may exit after the look that led to it, and
the system may find no process for it or refuse it.
-/

namespace Turnstile

/-- What a child is to its system. -/
inductive ChildState where
  | running
  /-- The status is kept for whoever waits for the child. -/
  | exited (status : ExitStatus)
  /-- The child was waited for, and another process may be given its number. -/
  | reaped (status : ExitStatus)
  deriving DecidableEq, Repr

namespace ChildState

def status? : ChildState → Option ExitStatus
  | .running => none
  | .exited status => some status
  | .reaped status => some status

/-- The status that is known to whoever waited for the child. -/
def reaped? : ChildState → Option ExitStatus
  | .reaped status => some status
  | _ => none

/-- The child after a look at it. -/
def reap : ChildState → ChildState
  | .exited status => .reaped status
  | child => child

theorem eq_running_of_status? {child : ChildState} (none : child.status? = none) :
    child = .running := by
  cases child with
  | running => rfl
  | exited status => cases none
  | reaped status => cases none

theorem eq_reaped_of_reaped? {child : ChildState} {status : ExitStatus}
    (known : child.reaped? = some status) : child = .reaped status := by
  cases child with
  | running => cases known
  | exited status => cases known
  | reaped status => exact congrArg _ (Option.some.inj known)

theorem status?_reap (child : ChildState) : child.reap.status? = child.status? := by
  cases child <;> rfl

theorem reap_eq_reaped {child : ChildState} {status : ExitStatus}
    (gone : child.status? = some status) : child.reap = .reaped status := by
  cases child with
  | running => cases gone
  | exited other => exact congrArg _ (Option.some.inj gone)
  | reaped other => exact congrArg _ (Option.some.inj gone)

end ChildState

/-! ## The system -/

/-- What becomes of a signal, by the instant and by what the child is then. -/
abbrev Deliveries := Time → Signal → ChildState → Delivery

namespace Deliveries

/-- Signals are heard of; only the first may find no process where there is one. -/
structure Regular (deliveries : Deliveries) : Prop where
  /-- A signal is accepted, or there is no such process. -/
  heard : ∀ now signal child cause, deliveries now signal child ≠ .refused cause
  /-- A child that accepted a request is there until it is waited for, exited or not. -/
  stays : ∀ {earlier later : Time} {child remains : ChildState}, earlier ≤ later →
    child.reaped? = none → remains.reaped? = none →
      deliveries earlier .term child = .accepted → deliveries later .kill remains ≠ .gone

/-- A child is a process until it is waited for. -/
def standard : Deliveries := fun _ _ child =>
  if child.reaped?.isSome then .gone else .accepted

theorem standard_regular : standard.Regular where
  heard now signal child cause := by
    unfold standard
    split <;> nofun
  stays _ _ there _ := by
    rw [standard, there]
    nofun

end Deliveries

namespace Shutdown

/-- Whether the child is waited for; one that is overdue is not looked at before it is forced. -/
def waits (shutdown : Shutdown) : Bool :=
  match shutdown.stage with
  | .patient _ => true
  | .forced => true
  | .awaited => true
  | _ => false

/-- One look at a child: that it has exited comes before the end of its time. -/
def attend (now : Time) (exited : Option ExitStatus) (shutdown : Shutdown) : Shutdown :=
  match exited with
  | some status => shutdown.exit status
  | none => shutdown.timeUp (now + 1)

/-- An ending starts with a request, not with force. -/
theorem stage_begin_ne (now grace : Time) (reaped : Option ExitStatus) (answer : Delivery) :
    (begin now grace reaped answer).stage ≠ .overdue := by
  cases reaped <;> cases answer <;> nofun

theorem isOver_exit (shutdown : Shutdown) (status : ExitStatus) :
    (shutdown.exit status).isOver = true := by
  cases stage : shutdown.stage <;> simp [exit, isOver, stage]

theorem exit_of_waits {shutdown : Shutdown} (waits : shutdown.waits = true)
    (status : ExitStatus) : shutdown.exit status = { shutdown with stage := .reaped status } := by
  cases stage : shutdown.stage <;> simp [Shutdown.waits, stage] at waits <;> simp [exit, stage]

theorem timeUp_of_due {shutdown : Shutdown} {killAt now : Time}
    (patient : shutdown.stage = .patient killAt) (due : killAt ≤ now) :
    shutdown.timeUp (now + 1) = { shutdown with stage := .overdue } := by
  have late : killAt < now + 1 := Nat.lt_succ_of_le due
  simp [timeUp, patient, late]

theorem timeUp_of_not_due {shutdown : Shutdown} {now : Time}
    (early : ∀ killAt, shutdown.stage = .patient killAt → now < killAt) :
    shutdown.timeUp (now + 1) = shutdown := by
  unfold timeUp
  split
  · rename_i killAt patient
    exact if_neg (Nat.not_lt.mpr (early killAt patient))
  · rfl

theorem attend_of_not_waits {shutdown : Shutdown} (stays : shutdown.waits = false)
    (rests : shutdown.stage ≠ .overdue) (now : Time) (exited : Option ExitStatus) :
    shutdown.attend now exited = shutdown := by
  cases stage : shutdown.stage with
  | reaped status => cases exited <;> simp [attend, exit, timeUp, stage]
  | failed cause => cases exited <;> simp [attend, exit, timeUp, stage]
  | overdue => exact absurd stage rests
  | _ => simp [waits, stage] at stays

theorem force_of_ne {shutdown : Shutdown} (rests : shutdown.stage ≠ .overdue)
    (answer : Delivery) : shutdown.force answer = shutdown := by
  unfold force
  split
  · rename_i overdue
    exact absurd overdue rests
  · rfl

theorem force_exit (shutdown : Shutdown) (status : ExitStatus) (answer : Delivery) :
    (shutdown.exit status).force answer = shutdown.exit status := by
  refine force_of_ne (fun overdue => ?_) answer
  have finished := isOver_exit shutdown status
  simp [isOver, overdue] at finished

/-- After force it is decided whether the child is waited for. -/
theorem stage_force_ne (shutdown : Shutdown) (answer : Delivery) :
    (shutdown.force answer).stage ≠ .overdue := by
  unfold force
  split
  · cases answer <;> nofun
  · rename_i other
    exact other

end Shutdown

/-! ## Custody -/

/-- What a keeper saw of a child. -/
structure Sight where
  instant : Time
  child : ChildState
  deriving DecidableEq, Repr

/-- A signal that is tried on a child. -/
structure Attempt where
  instant : Time
  signal : Signal
  /-- What the child was at that instant. -/
  child : ChildState
  answer : Delivery
  /-- What its keeper had seen of it last. -/
  sight : Option Sight
  deriving DecidableEq, Repr

/-- A signal without the effect that an ending relies on. -/
structure Attempt.Fails (attempt : Attempt) (cause : String) : Prop where
  unreaped : attempt.child.reaped? = none
  answer : attempt.answer = .refused cause ∨
    attempt.signal = .kill ∧ attempt.answer = .gone ∧ cause = Shutdown.noProcess

structure Custody where
  clock : Time
  child : ChildState
  shutdown : Shutdown
  sight : Option Sight := none
  /-- The signals tried, in order. -/
  tried : List Attempt := []
  deriving DecidableEq, Repr

namespace Custody

/-- One of the smallest things that happen in custody. -/
inductive Move where
  | passes (span : Time)
  | exits (status : ExitStatus)
  | looks
  /-- A child that is overdue is ended by force. -/
  | forces
  deriving DecidableEq, Repr

/-- The request with which an ending starts. -/
def request (deliveries : Deliveries) (now : Time) (child : ChildState) : Attempt :=
  ⟨now, .term, child, deliveries now .term child, none⟩

/-- The start of an ending; a child that was reaped is left alone. -/
def begin (deliveries : Deliveries) (now grace : Time) (child : ChildState) : Custody where
  clock := now
  child := child
  shutdown := .begin now grace child.reaped? (deliveries now .term child)
  tried := if child.reaped?.isSome then [] else [request deliveries now child]

/-- The keeper looks at the child it waits for, reaps it if it has exited, and heeds its time. -/
def look (custody : Custody) : Custody :=
  if custody.shutdown.waits then
    { custody with
      child := custody.child.reap
      shutdown := custody.shutdown.attend custody.clock custody.child.status?
      sight := some ⟨custody.clock, custody.child⟩ }
  else custody

/-- The signal by which the keeper ends the child, as the child is now. -/
def blow (deliveries : Deliveries) (custody : Custody) : Attempt :=
  ⟨custody.clock, .kill, custody.child, deliveries custody.clock .kill custody.child,
    custody.sight⟩

/-- The keeper ends a child whose time has run out. -/
def force (deliveries : Deliveries) (custody : Custody) : Custody :=
  match custody.shutdown.stage with
  | .overdue =>
    { custody with
      shutdown := custody.shutdown.force (custody.blow deliveries).answer
      tried := custody.tried ++ [custody.blow deliveries] }
  | _ => custody

/-- The child exits, unless it has. -/
def exit (status : ExitStatus) (custody : Custody) : Custody :=
  match custody.child with
  | .running => { custody with child := .exited status }
  | _ => custody

def move (deliveries : Deliveries) (custody : Custody) : Move → Custody
  | .passes span => { custody with clock := custody.clock + span }
  | .exits status => custody.exit status
  | .looks => custody.look
  | .forces => custody.force deliveries

def run (deliveries : Deliveries) (custody : Custody) (moves : List Move) : Custody :=
  moves.foldl (move deliveries) custody

variable {deliveries : Deliveries} {begun grace : Time} {custody : Custody}

theorem run_append (custody : Custody) (moves more : List Move) :
    custody.run deliveries (moves ++ more) = (custody.run deliveries moves).run deliveries more :=
  List.foldl_append

/-- The status with which a running child exits, if it does. -/
def exits? (moves : List Move) : Option ExitStatus :=
  moves.findSome? fun
    | .exits status => some status
    | _ => none

/-! ## One look -/

theorem look_of_not_waits (stays : custody.shutdown.waits = false) : custody.look = custody := by
  rw [look, stays]
  rfl

theorem clock_look (custody : Custody) : custody.look.clock = custody.clock := by
  unfold look
  split <;> rfl

theorem status?_child_look (custody : Custody) :
    custody.look.child.status? = custody.child.status? := by
  unfold look
  split
  · exact ChildState.status?_reap custody.child
  · rfl

/-- Unless force is next, a look is heeded; an ending that is over is left as it is. -/
theorem shutdown_look (rests : custody.shutdown.stage ≠ .overdue) :
    custody.look.shutdown =
      custody.shutdown.attend custody.clock custody.child.status? := by
  unfold look
  split
  · rfl
  · rename_i stays
    exact (Shutdown.attend_of_not_waits (Bool.eq_false_iff.mpr stays) rests _ _).symm

theorem look_of_exited {status : ExitStatus} (waits : custody.shutdown.waits = true)
    (gone : custody.child.status? = some status) :
    custody.look =
      { custody with
        child := .reaped status
        shutdown := { custody.shutdown with stage := .reaped status }
        sight := some ⟨custody.clock, custody.child⟩ } := by
  rw [look, if_pos waits, gone, ChildState.reap_eq_reaped gone, Shutdown.attend,
    Shutdown.exit_of_waits waits]

theorem look_of_running (waits : custody.shutdown.waits = true) (runs : custody.child = .running) :
    custody.look =
      { custody with
        shutdown := custody.shutdown.timeUp (custody.clock + 1)
        sight := some ⟨custody.clock, .running⟩ } := by
  rw [look, if_pos waits, runs]
  rfl

/-! ## Force -/

theorem clock_force (custody : Custody) : (custody.force deliveries).clock = custody.clock := by
  unfold force
  split <;> rfl

theorem child_force (custody : Custody) : (custody.force deliveries).child = custody.child := by
  unfold force
  split <;> rfl

theorem shutdown_force (custody : Custody) :
    (custody.force deliveries).shutdown =
      custody.shutdown.force (custody.blow deliveries).answer := by
  unfold force
  split
  · rfl
  · rename_i rests
    exact (Shutdown.force_of_ne rests _).symm

/-! ## What is tried -/

/--
A child is asked to end before it is ended by force, and only one that was seen to run after
its time, by a keeper who has not looked again.
-/
inductive Orderly (deliveries : Deliveries) (begun grace : Time) : List Attempt → Prop where
  | nothing : Orderly deliveries begun grace []
  | asked {child : ChildState} (there : child.reaped? = none) :
      Orderly deliveries begun grace [request deliveries begun child]
  | forced {child remains : ChildState} {seen late : Time} (there : child.reaped? = none)
      (accepted : deliveries begun .term child = .accepted) (elapsed : begun + grace ≤ seen)
      (after : seen ≤ late) (unreaped : remains.reaped? = none) :
      Orderly deliveries begun grace [request deliveries begun child,
        ⟨late, .kill, remains, deliveries late .kill remains, some ⟨seen, .running⟩⟩]

namespace Orderly

variable {tried : List Attempt} {attempt : Attempt}

theorem signals_isPrefix (orderly : Orderly deliveries begun grace tried) :
    tried.map Attempt.signal <+: [.term, .kill] := by
  cases orderly with
  | nothing => exact List.nil_prefix
  | asked there => exact ⟨[.kill], rfl⟩
  | forced there accepted elapsed after unreaped => exact List.prefix_refl _

theorem reaped?_eq_none (orderly : Orderly deliveries begun grace tried)
    (member : attempt ∈ tried) : attempt.child.reaped? = none := by
  cases orderly with
  | nothing => cases member
  | asked there =>
      cases List.mem_singleton.mp member
      exact there
  | forced there accepted elapsed after unreaped =>
      rcases List.mem_cons.mp member with rfl | member
      · exact there
      · cases List.mem_singleton.mp member
        exact unreaped

/-- A child that is ended by force was asked before, and was seen to outlive its time. -/
theorem exists_term_of_kill (orderly : Orderly deliveries begun grace tried)
    (member : attempt ∈ tried) (kills : attempt.signal = .kill) :
    ∃ earlier ∈ tried, ∃ seen, earlier.signal = .term ∧ earlier.answer = .accepted ∧
      earlier.instant = begun ∧ attempt.sight = some ⟨seen, .running⟩ ∧
        begun + grace ≤ seen ∧ seen ≤ attempt.instant := by
  cases orderly with
  | nothing => cases member
  | asked there =>
      cases List.mem_singleton.mp member
      cases kills
  | forced there accepted elapsed after unreaped =>
      rcases List.mem_cons.mp member with rfl | member
      · cases kills
      · cases List.mem_singleton.mp member
        exact ⟨_, List.mem_cons_self, _, rfl, accepted, rfl, rfl, elapsed, after⟩

theorem answer_eq (orderly : Orderly deliveries begun grace tried) (member : attempt ∈ tried) :
    attempt.answer = deliveries attempt.instant attempt.signal attempt.child := by
  cases orderly with
  | nothing => cases member
  | asked there =>
      cases List.mem_singleton.mp member
      rfl
  | forced there accepted elapsed after unreaped =>
      rcases List.mem_cons.mp member with rfl | member
      · rfl
      · cases List.mem_singleton.mp member
        rfl

/-- No signal fails where signals are heard of. -/
theorem not_fails (orderly : Orderly deliveries begun grace tried)
    (regular : deliveries.Regular) (member : attempt ∈ tried) (cause : String) :
    ¬ attempt.Fails cause := by
  rintro ⟨unreaped, refused | ⟨kills, gone, -⟩⟩
  · rw [orderly.answer_eq member] at refused
    exact regular.heard _ _ _ _ refused
  · obtain ⟨earlier, among, seen, term, accepted, rfl, -, elapsed, after⟩ :=
      orderly.exists_term_of_kill member kills
    rw [orderly.answer_eq member, kills] at gone
    rw [orderly.answer_eq among, term] at accepted
    have order : earlier.instant ≤ attempt.instant :=
      Nat.le_trans (Nat.le_trans (Nat.le_add_right _ grace) elapsed) after
    exact regular.stays order (orderly.reaped?_eq_none among) unreaped accepted gone

end Orderly

/-! ## What every move keeps -/

/-- The child was asked to end, and no more than that. -/
def IsAsked (deliveries : Deliveries) (begun : Time) (tried : List Attempt) : Prop :=
  ∃ child : ChildState, child.reaped? = none ∧ deliveries begun .term child = .accepted ∧
    tried = [request deliveries begun child]

/-- A child in custody: it is reaped exactly when its ending tells its status. -/
structure Kept (deliveries : Deliveries) (begun grace : Time) (custody : Custody) : Prop where
  orderly : Orderly deliveries begun grace custody.tried
  signals : custody.tried.map Attempt.signal = custody.shutdown.tried
  patient : ∀ killAt, custody.shutdown.stage = .patient killAt →
    killAt = begun + grace ∧ IsAsked deliveries begun custody.tried
  /-- Force is next only for a child that was seen to run on after its time. -/
  overdue : custody.shutdown.stage = .overdue →
    IsAsked deliveries begun custody.tried ∧ ∃ seen, custody.sight = some ⟨seen, .running⟩ ∧
      begun + grace ≤ seen ∧ seen ≤ custody.clock
  ended : ∀ status, custody.child = .reaped status ↔ custody.shutdown.stage = .reaped status
  failed : ∀ cause, custody.shutdown.stage = .failed cause →
    ∃ attempt ∈ custody.tried, attempt.Fails cause

namespace Kept

/-- A child that is not reaped is there, as far as its ending is not over. -/
theorem reaped?_eq_none (kept : Kept deliveries begun grace custody)
    (stage : ∀ status, custody.shutdown.stage ≠ .reaped status) :
    custody.child.reaped? = none := by
  cases child : custody.child with
  | running => rfl
  | exited status => rfl
  | reaped status => exact absurd ((kept.ended status).mp child) (stage status)

/-- The child is asked to end, unless it was reaped. -/
theorem begin (deliveries : Deliveries) (now grace : Time) (child : ChildState) :
    Kept deliveries now grace (.begin deliveries now grace child) := by
  cases there : child.reaped? with
  | some status =>
      cases ChildState.eq_reaped_of_reaped? there
      refine ⟨.nothing, rfl, nofun, nofun, fun other => ?_, nofun⟩
      simp [Custody.begin, Shutdown.begin, ChildState.reaped?]
  | none =>
      have unreaped (status : ExitStatus) : child ≠ .reaped status := by
        rintro rfl
        cases there
      have starts : Custody.begin deliveries now grace child =
          { clock := now, child, shutdown := .begin now grace none (deliveries now .term child)
            tried := [request deliveries now child] } := by
        simp [Custody.begin, there]
      rw [starts]
      cases answer : deliveries now .term child with
      | accepted =>
          refine ⟨.asked there, rfl, fun killAt patient => ?_, nofun, fun status => ?_, nofun⟩
          · cases patient
            exact ⟨rfl, child, there, answer, rfl⟩
          · exact iff_of_false (unreaped status) nofun
      | gone =>
          refine ⟨.asked there, rfl, nofun, nofun, fun status => ?_, nofun⟩
          exact iff_of_false (unreaped status) nofun
      | refused cause =>
          refine ⟨.asked there, rfl, nofun, nofun, fun status => ?_, fun other failed => ?_⟩
          · exact iff_of_false (unreaped status) nofun
          · cases failed
            exact ⟨_, List.mem_cons_self, there, .inl answer⟩

theorem look (kept : Kept deliveries begun grace custody) :
    Kept deliveries begun grace custody.look := by
  cases waits : custody.shutdown.waits with
  | false => rwa [look_of_not_waits waits]
  | true =>
      cases gone : custody.child.status? with
      | some status =>
          rw [look_of_exited waits gone]
          constructor
          case orderly => exact kept.orderly
          case signals => exact kept.signals
          case ended => simp
          all_goals exact nofun
      | none =>
          have runs := ChildState.eq_running_of_status? gone
          rw [look_of_running waits runs]
          -- A child that runs is overdue from the first look after its time.
          by_cases due : ∃ killAt, custody.shutdown.stage = .patient killAt ∧ killAt ≤ custody.clock
          · obtain ⟨killAt, patient, due⟩ := due
            obtain ⟨rfl, asked⟩ := kept.patient killAt patient
            rw [Shutdown.timeUp_of_due patient due]
            constructor
            case orderly => exact kept.orderly
            case signals => exact kept.signals
            case overdue => exact fun _ => ⟨asked, _, rfl, due, Nat.le_refl _⟩
            case ended => simp [runs]
            all_goals exact nofun
          · rw [Shutdown.timeUp_of_not_due fun killAt patient =>
              Nat.lt_of_not_le fun late => due ⟨killAt, patient, late⟩]
            refine ⟨kept.orderly, kept.signals, kept.patient, fun overdue => ?_, kept.ended,
              kept.failed⟩
            have overdue : custody.shutdown.stage = .overdue := overdue
            simp [Shutdown.waits, overdue] at waits

theorem force (kept : Kept deliveries begun grace custody) :
    Kept deliveries begun grace (custody.force deliveries) := by
  unfold Custody.force
  split
  · rename_i overdue
    obtain ⟨⟨child, there, accepted, tried⟩, seen, sight, elapsed, after⟩ := kept.overdue overdue
    have unreaped := kept.reaped?_eq_none fun status => by simp [overdue]
    have orderly : Orderly deliveries begun grace (custody.tried ++ [custody.blow deliveries]) := by
      rw [tried, blow, sight]
      exact .forced there accepted elapsed after unreaped
    have signals : (custody.tried ++ [custody.blow deliveries]).map Attempt.signal =
        custody.shutdown.tried ++ [.kill] := by
      rw [List.map_append, kept.signals]
      rfl
    have last : custody.blow deliveries ∈ custody.tried ++ [custody.blow deliveries] :=
      List.mem_append_right _ List.mem_cons_self
    have alive (status : ExitStatus) : custody.child ≠ .reaped status := by
      intro reaped
      rw [reaped] at unreaped
      cases unreaped
    cases answer : (custody.blow deliveries).answer <;>
      simp only [Shutdown.force, overdue]
    case accepted =>
      exact ⟨orderly, signals, nofun, nofun, fun status => iff_of_false (alive status) nofun, nofun⟩
    case gone =>
      refine ⟨orderly, signals, nofun, nofun, fun status => iff_of_false (alive status) nofun,
        fun cause failed => ?_⟩
      cases failed
      exact ⟨_, last, unreaped, .inr ⟨rfl, answer, rfl⟩⟩
    case refused cause =>
      refine ⟨orderly, signals, nofun, nofun, fun status => iff_of_false (alive status) nofun,
        fun cause failed => ?_⟩
      cases failed
      exact ⟨_, last, unreaped, .inl answer⟩
  · exact kept

theorem exit (kept : Kept deliveries begun grace custody) (status : ExitStatus) :
    Kept deliveries begun grace (custody.exit status) := by
  unfold Custody.exit
  split
  · rename_i runs
    refine ⟨kept.orderly, kept.signals, kept.patient, kept.overdue,
      fun other => iff_of_false nofun ?_, kept.failed⟩
    intro reaped
    rw [(kept.ended other).mpr reaped] at runs
    cases runs
  · exact kept

theorem move (kept : Kept deliveries begun grace custody) (move : Move) :
    Kept deliveries begun grace (custody.move deliveries move) := by
  cases move with
  | passes span =>
      refine ⟨kept.orderly, kept.signals, kept.patient, fun overdue => ?_, kept.ended, kept.failed⟩
      obtain ⟨asked, seen, sight, elapsed, after⟩ := kept.overdue overdue
      exact ⟨asked, seen, sight, elapsed, Nat.le_trans after (Nat.le_add_right _ span)⟩
  | exits status => exact kept.exit status
  | looks => exact kept.look
  | forces => exact kept.force

theorem run (kept : Kept deliveries begun grace custody) (moves : List Move) :
    Kept deliveries begun grace (custody.run deliveries moves) := by
  induction moves generalizing custody with
  | nil => exact kept
  | cons first moves ih => exact ih (kept.move first)

/-- An ending is over when the child is reaped, or when a signal to it has failed. -/
theorem exists_reaped_or_fails (kept : Kept deliveries begun grace custody)
    (finished : custody.shutdown.isOver = true) :
    (∃ status, custody.child = .reaped status ∧ custody.shutdown.status? = some status) ∨
      ∃ cause, custody.shutdown.stage = .failed cause ∧ custody.child.reaped? = none ∧
        ∃ attempt ∈ custody.tried, attempt.Fails cause := by
  cases stage : custody.shutdown.stage with
  | reaped status =>
      refine .inl ⟨status, (kept.ended status).mpr stage, ?_⟩
      rw [Shutdown.status?, stage]
  | failed cause =>
      exact .inr ⟨cause, rfl, kept.reaped?_eq_none fun status => by simp [stage],
        kept.failed cause stage⟩
  | _ => simp [Shutdown.isOver, stage] at finished

theorem exists_reaped (kept : Kept deliveries begun grace custody) (regular : deliveries.Regular)
    (finished : custody.shutdown.isOver = true) :
    ∃ status, custody.child = .reaped status ∧ custody.shutdown.status? = some status := by
  rcases kept.exists_reaped_or_fails finished with reaped | ⟨cause, -, -, attempt, member, fails⟩
  · exact reaped
  · exact absurd fails (kept.orderly.not_fails regular member cause)

end Kept

/-! ## The child's own end -/

theorem exits?_append (moves more : List Move) :
    exits? (moves ++ more) = (exits? moves).or (exits? more) :=
  List.findSome?_append

theorem status?_child_move (custody : Custody) (move : Move) :
    (custody.move deliveries move).child.status? = custody.child.status?.or (exits? [move]) := by
  cases move with
  | passes span => exact Option.or_none.symm
  | exits status =>
      cases child : custody.child <;>
        simp [Custody.move, exit, exits?, child, ChildState.status?]
  | looks => exact (status?_child_look custody).trans Option.or_none.symm
  | forces =>
      exact (congrArg ChildState.status? (child_force custody)).trans Option.or_none.symm

/-- A child keeps the status with which it exits first. -/
theorem status?_child_run (custody : Custody) (moves : List Move) :
    (custody.run deliveries moves).child.status? = custody.child.status?.or (exits? moves) := by
  induction moves generalizing custody with
  | nil => exact Option.or_none.symm
  | cons first moves ih =>
      have split : exits? (first :: moves) = _ := exits?_append [first] moves
      rw [split, ← Option.or_assoc, ← status?_child_move]
      exact ih (custody.move deliveries first)

/-! ## Between a look and force -/

/-- The child runs, or has exited after the look that made force next. -/
def RanAtLook (deliveries : Deliveries) (start : Custody) (moves : List Move)
    (child : ChildState) : Prop :=
  child = .running ∨ ∃ before status after, moves = before ++ .exits status :: after ∧
    (start.run deliveries before).shutdown.stage = .overdue ∧ child = .exited status

theorem RanAtLook.append {start : Custody} {moves : List Move} {child : ChildState}
    (ran : RanAtLook deliveries start moves child) (more : List Move) :
    RanAtLook deliveries start (moves ++ more) child := by
  rcases ran with runs | ⟨before, status, after, rfl, overdue, exited⟩
  · exact .inl runs
  · exact .inr ⟨before, status, after ++ more, by simp, overdue, exited⟩

/-- The signal by which a child is ended finds it as it was seen last, or exited since then. -/
structure Forewarned (deliveries : Deliveries) (start : Custody) (moves : List Move)
    (custody : Custody) : Prop where
  overdue : custody.shutdown.stage = .overdue → RanAtLook deliveries start moves custody.child
  forced : ∀ attempt ∈ custody.tried, attempt.signal = .kill →
    RanAtLook deliveries start moves attempt.child

namespace Forewarned

variable {start : Custody} {moves : List Move}

theorem append (warned : Forewarned deliveries start moves custody) (more : List Move) :
    Forewarned deliveries start (moves ++ more) custody where
  overdue stage := (warned.overdue stage).append more
  forced attempt member kills := (warned.forced attempt member kills).append more

theorem begin (deliveries : Deliveries) (now grace : Time) (child : ChildState) :
    Forewarned deliveries start [] (.begin deliveries now grace child) := by
  constructor
  case overdue =>
    intro overdue
    cases there : child.reaped? with
    | some status => simp [Custody.begin, Shutdown.begin, there] at overdue
    | none =>
        cases answer : deliveries now .term child <;>
          simp [Custody.begin, Shutdown.begin, there, answer] at overdue
  case forced =>
    intro attempt member kills
    cases there : child.reaped?.isSome with
    | true => simp [Custody.begin, there] at member
    | false =>
        simp only [Custody.begin, there, Bool.false_eq_true, if_false, List.mem_singleton] at member
        subst member
        cases kills

theorem look (warned : Forewarned deliveries start moves custody) :
    Forewarned deliveries start moves custody.look := by
  cases waits : custody.shutdown.waits with
  | false => rwa [look_of_not_waits waits]
  | true =>
      cases gone : custody.child.status? with
      | some status =>
          rw [look_of_exited waits gone]
          exact ⟨nofun, warned.forced⟩
      | none =>
          have runs := ChildState.eq_running_of_status? gone
          rw [look_of_running waits runs]
          exact ⟨fun _ => .inl runs, warned.forced⟩

theorem force (warned : Forewarned deliveries start moves custody) :
    Forewarned deliveries start moves (custody.force deliveries) := by
  unfold Custody.force
  split
  · rename_i overdue
    constructor
    case overdue =>
      intro still
      cases answer : (custody.blow deliveries).answer <;>
        simp [Shutdown.force, overdue, answer] at still
    case forced =>
      intro attempt member kills
      rcases List.mem_append.mp member with before | last
      · exact warned.forced attempt before kills
      · cases List.mem_singleton.mp last
        exact warned.overdue overdue
  · exact warned

/-- Only an exit while force is next comes between a look and the signal. -/
theorem move (warned : Forewarned deliveries start moves (start.run deliveries moves))
    (move : Move) :
    Forewarned deliveries start (moves ++ [move])
      ((start.run deliveries moves).move deliveries move) := by
  cases move with
  | passes span => exact ⟨(warned.append _).overdue, (warned.append _).forced⟩
  | exits status =>
      rw [Custody.move, Custody.exit]
      split
      · refine ⟨fun overdue => ?_, (warned.append _).forced⟩
        exact .inr ⟨moves, status, [], rfl, overdue, rfl⟩
      · exact warned.append _
  | looks => exact warned.look.append _
  | forces => exact warned.force.append _

theorem run (now grace : Time) (child : ChildState) (moves : List Move) :
    Forewarned deliveries (.begin deliveries now grace child) moves
      ((Custody.begin deliveries now grace child).run deliveries moves) := by
  induction moves using List.reverseRecOn with
  | nil => exact .begin deliveries now grace child
  | append_singleton moves last ih =>
      rw [run_append]
      exact ih.move last

end Forewarned

/-! ## The end of custody -/

/-- What can be told of custody of a child at any moment after its start. -/
structure Safe (deliveries : Deliveries) (grace : Time) (start : Custody) (moves : List Move)
    (custody : Custody) : Prop where
  /-- The ending of a child is over once the child is reaped, and its status is told. -/
  reaped : custody.shutdown.isOver = true → ∃ status,
    custody.child = .reaped status ∧ custody.shutdown.status? = some status
  own : custody.child.status? = start.child.status?.or (exits? moves)
  once : custody.tried.map Attempt.signal <+: [.term, .kill]
  there : ∀ attempt ∈ custody.tried, attempt.child.reaped? = none
  /-- Force comes after a request and the time given, and a look that finds no exit since. -/
  patient : ∀ attempt ∈ custody.tried, attempt.signal = .kill →
    ∃ earlier ∈ custody.tried, ∃ seen, earlier.signal = .term ∧ earlier.answer = .accepted ∧
      attempt.sight = some ⟨seen, .running⟩ ∧ earlier.instant + grace ≤ seen ∧
        seen ≤ attempt.instant
  /-- The child runs on at the signal, unless it exits once that look has decided on force. -/
  running : ∀ attempt ∈ custody.tried, attempt.signal = .kill →
    RanAtLook deliveries start moves attempt.child

/-- A child that ignores the request and exits just before it is ended by force. -/
def stubborn : List Move :=
  [.looks, .passes 4, .looks, .forces, .passes 1, .looks, .exits (.exited 3), .passes 2, .forces,
    .exits (.signalled 9), .looks, .forces, .looks]

/-- The same child is asked at 7, seen at 12, ended by force at 14, and keeps its own status. -/
example : ((begin .standard 7 5 .running).run .standard stubborn).tried =
      [⟨7, .term, .running, .accepted, none⟩,
        ⟨14, .kill, .exited (.exited 3), .accepted, some ⟨12, .running⟩⟩] ∧
    ((begin .standard 7 5 .running).run .standard stubborn).child = .reaped (.exited 3) := by
  decide

end Custody

end Turnstile
