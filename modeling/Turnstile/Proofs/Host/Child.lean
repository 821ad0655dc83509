import Turnstile.Host.Child
import Turnstile.Proofs.Child.Custody

/-!
# Children of a machine in custody

A child of a machine is ended by listening to the machine and looking at the child in
between.  That is one of the ways in which custody can go.
-/

namespace Turnstile.Host

/-! ## The clock of a machine -/

namespace Machine

theorem clock_le_clockAfter {now limit : Nat} (early : ¬ limit ≤ now) (next : Nat) :
    now ≤ clockAfter now next limit := by
  unfold clockAfter
  omega

theorem clock_le_clock_advance (machine : Machine) (limit : Time) :
    machine.clock ≤ (machine.advance limit).clock := by
  induction machine using advance.induct limit with
  | case1 machine reports => exact Nat.le_of_eq (by rw [advance, if_pos reports])
  | case2 machine silent late => exact Nat.le_of_eq (by rw [advance, if_neg silent, dif_pos late])
  | case3 machine silent early busy clock ih =>
      rw [advance, if_neg silent, dif_neg early, if_pos busy]
      exact Nat.le_trans (clock_le_clockAfter early _) ih
  | case4 machine silent early idle clock ih =>
      rw [advance, if_neg silent, dif_neg early, if_neg idle]
      exact Nat.le_trans (clock_le_clockAfter early _) ih

theorem clock_signal (machine : Machine) (id : Nat) (signal : Signal) :
    (machine.signal id signal).clock = machine.clock := by
  have finished (process : Process) (status : ExitStatus) :
      (machine.finish process status).clock = machine.clock := by
    unfold finish
    split <;> rfl
  change (machine.deliver id signal.number).clock = machine.clock
  unfold deliver
  split
  · rfl
  · split
    · rfl
    · split
      · rfl
      · rfl
      · split
        · rfl
        · exact finished _ _

end Machine

namespace Child

variable {child : Child} {shutdown : Shutdown} {custody : Custody}

theorem machine_note (child : Child) (report : Nat × ProcessEvent) :
    (child.note report).machine = child.machine := by
  unfold note
  split <;> rfl

theorem clock_le_clock_advance (child : Child) (limit : Time) :
    child.machine.clock ≤ (child.advance limit).machine.clock := by
  have noted (reports : List (Nat × ProcessEvent)) (child : Child) :
      (reports.foldl note child).machine = child.machine := by
    induction reports generalizing child with
    | nil => rfl
    | cons report reports ih => exact (ih _).trans (machine_note child report)
  rw [advance, noted]
  exact Machine.clock_le_clock_advance child.machine limit

theorem clock_le_clock_runUntil (holds : Child → Bool) (limit : Time) (reports : Nat)
    (child : Child) : child.machine.clock ≤ (child.runUntil holds limit reports).machine.clock := by
  induction reports generalizing child with
  | zero => exact Nat.le_refl _
  | succ reports ih =>
      rw [runUntil]
      split
      · exact Nat.le_refl _
      · exact Nat.le_trans (clock_le_clock_advance child limit) (ih _)

theorem clock_signalAll (child : Child) (signals : List Signal) :
    (child.signalAll signals).machine.clock = child.machine.clock := by
  have sent (machine : Machine) :
      (signals.foldl (fun machine signal => machine.signal child.id signal) machine).clock =
        machine.clock := by
    induction signals generalizing machine with
    | nil => rfl
    | cons first signals ih => exact (ih _).trans (machine.clock_signal child.id first)
  exact sent child.machine

/-! ## Custody of a child -/

/-- What a child is to its machine, which was waited for if `reaped` holds. -/
def state (child : Child) (reaped : Bool) : ChildState :=
  match child.status with
  | none => .running
  | some status => if reaped then .reaped status else .exited status

/-- The machine accepts all signals. -/
def accepting : Deliveries := fun _ _ _ => .accepted

theorem accepting_regular : accepting.Regular :=
  ⟨nofun, nofun⟩

/-- Custody that stands where a machine and the ending of its child stand. -/
structure StandsAt (child : Child) (shutdown : Shutdown) (custody : Custody) : Prop where
  clock : custody.clock = child.machine.clock
  status : custody.child.status? = child.status
  shutdown : custody.shutdown = shutdown
  /-- The machine does not rest between a look and force. -/
  rests : custody.shutdown.stage ≠ .overdue

namespace StandsAt

/-- Custody stands where a child is found, which was running when it was last looked at. -/
theorem await (stands : StandsAt child shutdown custody) (runs : child.status = none)
    {later : Child} (passes : child.machine.clock ≤ later.machine.clock) :
    ∃ moves, StandsAt later shutdown (custody.run accepting moves) := by
  have running := ChildState.eq_running_of_status? (stands.status.trans runs)
  obtain ⟨span, elapsed⟩ := Nat.exists_eq_add_of_le passes
  have clock : custody.clock + span = later.machine.clock := by rw [stands.clock, elapsed]
  cases gone : later.status with
  | none =>
      refine ⟨[.passes span], clock, ?_, stands.shutdown, stands.rests⟩
      exact (stands.status.trans runs).trans gone.symm
  | some status =>
      refine ⟨[.passes span, .exits status], ?_⟩
      have exited : custody.run accepting [.passes span, .exits status] =
          { custody with clock := later.machine.clock, child := .exited status } := by
        simp [Custody.run, Custody.move, Custody.exit, running, clock]
      rw [exited]
      exact ⟨rfl, gone.symm, stands.shutdown, stands.rests⟩

/-- A look at a child and what comes of it, a process being found for every signal. -/
theorem attend (stands : StandsAt child shutdown custody) :
    StandsAt child ((shutdown.attend child.machine.clock child.status).force .accepted)
      (custody.run accepting [.looks, .forces]) := by
  constructor
  case clock =>
    exact (Custody.clock_force custody.look).trans ((Custody.clock_look custody).trans stands.clock)
  case status =>
    refine (congrArg ChildState.status? (Custody.child_force custody.look)).trans ?_
    exact (Custody.status?_child_look custody).trans stands.status
  case shutdown =>
    rw [← stands.shutdown, ← stands.clock, ← stands.status, ← Custody.shutdown_look stands.rests]
    exact Custody.shutdown_force custody.look
  case rests =>
    change (custody.look.force accepting).shutdown.stage ≠ .overdue
    rw [Custody.shutdown_force]
    exact Shutdown.stage_force_ne _ _

theorem noteExit (stands : StandsAt child shutdown custody) :
    ∃ moves, StandsAt child (child.noteExit shutdown) (custody.run accepting moves) := by
  cases gone : child.status with
  | none =>
      refine ⟨[], ?_⟩
      rw [Child.noteExit, gone]
      exact stands
  | some status =>
      refine ⟨[.looks, .forces], ?_⟩
      have attended := stands.attend
      rw [gone, Shutdown.attend, Shutdown.force_exit] at attended
      rw [Child.noteExit, gone]
      exact attended

end StandsAt

/-- An ending that goes on is the ending of a child that has not exited. -/
theorem status_eq_none (goes : (child.noteExit shutdown).isOver = false) : child.status = none := by
  cases gone : child.status with
  | none => rfl
  | some status =>
      rw [noteExit, gone, Shutdown.isOver_exit] at goes
      cases goes

/-- What is done about an ending that goes on is one look at the child. -/
theorem attend_eq (child : Child) (shutdown : Shutdown) :
    (if (child.noteExit shutdown).isOver then child.noteExit shutdown
      else (child.noteExit shutdown).expire (child.machine.clock + 1) .accepted) =
        (shutdown.attend child.machine.clock child.status).force .accepted := by
  cases gone : child.status with
  | none =>
      rw [noteExit, gone]
      cases stage : shutdown.stage <;>
        simp [Shutdown.attend, Shutdown.expire, Shutdown.timeUp, Shutdown.force, Shutdown.isOver,
          stage]
  | some status =>
      rw [noteExit, gone, if_pos (Shutdown.isOver_exit shutdown status), Shutdown.attend,
        Shutdown.force_exit]

theorem StandsAt.signalAll (stands : StandsAt child shutdown custody) (signals : List Signal) :
    StandsAt (child.signalAll signals) shutdown custody where
  clock := stands.clock.trans (clock_signalAll child signals).symm
  status := stands.status
  shutdown := stands.shutdown
  rests := stands.rests

/-- To follow a child to its end is one way in which custody can go. -/
theorem exists_run_follow (rounds : Nat) (stands : StandsAt child shutdown custody) :
    ∃ moves, StandsAt (child.follow rounds shutdown).1 (child.follow rounds shutdown).2
      (custody.run accepting moves) := by
  induction rounds generalizing child shutdown custody with
  | zero => exact ⟨[], stands⟩
  | succ rounds ih =>
      obtain ⟨noted, heard⟩ := stands.noteExit
      simp only [follow]
      split
      · exact ⟨noted, heard⟩
      · rename_i goes
        have runs := status_eq_none (Bool.eq_false_iff.mpr goes)
        obtain ⟨waited, awaited⟩ := heard.await runs (clock_le_clock_runUntil
          (fun child => child.status.isSome)
          ((child.noteExit shutdown).due?.getD (child.machine.clock + patience)) maxReports child)
        have attended := awaited.attend
        rw [← attend_eq] at attended
        obtain ⟨rest, last⟩ := ih (attended.signalAll _)
        refine ⟨noted ++ waited ++ [.looks, .forces] ++ rest, ?_⟩
        rw [Custody.run_append, Custody.run_append, Custody.run_append]
        exact last

/-- The end of a child of a machine is the end of its custody. -/
theorem exists_run_shutDown (child : Child) (reaped : Bool) (grace : Time) :
    ∃ moves, StandsAt (child.shutDown reaped grace).1 (child.shutDown reaped grace).2
      ((Custody.begin accepting child.machine.clock grace (child.state reaped)).run accepting
        moves) := by
  refine exists_run_follow 4 (StandsAt.signalAll ⟨rfl, ?_, ?_, ?_⟩ _)
  · unfold state
    cases child.status with
    | none => rfl
    | some status => cases reaped <;> rfl
  · unfold state
    cases child.status with
    | none => cases reaped <;> rfl
    | some status => cases reaped <;> rfl
  · exact Shutdown.stage_begin_ne _ _ _ _

/-- An ending that is over tells what the machine has told of the child. -/
theorem status?_shutDown (child : Child) (reaped : Bool) (grace : Time)
    (ended : (child.shutDown reaped grace).2.isOver = true) :
    (child.shutDown reaped grace).2.status? = (child.shutDown reaped grace).1.status := by
  obtain ⟨moves, stands⟩ := exists_run_shutDown child reaped grace
  have kept := (Custody.Kept.begin accepting child.machine.clock grace (child.state reaped)).run
    moves
  rw [← stands.shutdown] at ended ⊢
  obtain ⟨status, known, told⟩ := kept.exists_reaped accepting_regular ended
  rw [told, ← stands.status, known]
  rfl

end Child

end Turnstile.Host
