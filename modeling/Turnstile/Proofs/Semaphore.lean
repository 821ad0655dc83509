import Turnstile.Semaphore

/-!
# Permits and the line for them

What a semaphore holds is said by three numbers and lists that are kept outside
it: its capacity, who waits in line, and how many permits are out.  Each
operation is described by what becomes of these.
-/

namespace Turnstile.Semaphore

variable {ι : Type}

/-- A semaphore agrees with a capacity, a line of callers and a number of permits that are out. -/
structure Serves (capacity : Nat) (line : List ι) (out : Nat) (semaphore : Semaphore ι) : Prop where
  queue_eq : semaphore.queue = line
  balance : semaphore.free + out = capacity
  /-- Nobody waits while a permit is free. -/
  busy : line ≠ [] → semaphore.free = 0
  /-- Nobody waits once the semaphore is closed. -/
  open_of_line : line ≠ [] → semaphore.isClosed = false

/-- A semaphore before anyone has come. -/
theorem Serves.start (capacity : Nat) :
    Serves capacity [] 0 ({ free := capacity } : Semaphore ι) :=
  ⟨rfl, rfl, fun some => absurd rfl some, fun some => absurd rfl some⟩

/-! ## Asking for a permit -/

theorem acquire_of_closed {semaphore : Semaphore ι} (who : ι) (closed : semaphore.isClosed = true) :
    semaphore.acquire who = (.refused, semaphore) := by
  simp [acquire, closed]

theorem acquire_of_free {semaphore : Semaphore ι} (who : ι) (opened : semaphore.isClosed = false)
    (free : 0 < semaphore.free) :
    semaphore.acquire who = (.granted, { semaphore with free := semaphore.free - 1 }) := by
  simp [acquire, opened, free]

theorem acquire_of_busy {semaphore : Semaphore ι} (who : ι) (opened : semaphore.isClosed = false)
    (busy : semaphore.free = 0) :
    semaphore.acquire who = (.queued, { semaphore with queue := semaphore.queue ++ [who] }) := by
  simp [acquire, opened, busy]

theorem isBusy_eq_true_iff {semaphore : Semaphore ι} :
    semaphore.isBusy = true ↔ semaphore.isClosed = false ∧ semaphore.free = 0 := by
  simp [isBusy]

namespace Serves

variable {capacity out : Nat} {line : List ι} {semaphore : Semaphore ι}

theorem line_eq_nil_of_free (serves : Serves capacity line out semaphore)
    (free : 0 < semaphore.free) : line = [] := by
  cases line with
  | nil => rfl
  | cons first rest =>
      have busy := serves.busy (List.cons_ne_nil _ _)
      omega

theorem grant (serves : Serves capacity line out semaphore) (free : 0 < semaphore.free) :
    Serves capacity line (out + 1) { semaphore with free := semaphore.free - 1 } := by
  have empty := serves.line_eq_nil_of_free free
  have balance := serves.balance
  refine ⟨serves.queue_eq, ?_, fun waited => absurd empty waited, serves.open_of_line⟩
  change semaphore.free - 1 + (out + 1) = capacity
  omega

theorem enqueue (serves : Serves capacity line out semaphore) (who : ι)
    (opened : semaphore.isClosed = false) (busy : semaphore.free = 0) :
    Serves capacity (line ++ [who]) out { semaphore with queue := semaphore.queue ++ [who] } :=
  ⟨congrArg (· ++ [who]) serves.queue_eq, serves.balance, fun _ => busy, fun _ => opened⟩

/-! ## Giving a permit back -/

/-- Nobody waits: the permit becomes free. -/
theorem release_of_nil (serves : Serves capacity [] (out + 1) semaphore) :
    semaphore.release = (none, { semaphore with free := semaphore.free + 1 }) ∧
      Serves capacity [] out { semaphore with free := semaphore.free + 1 } := by
  have balance := serves.balance
  refine ⟨by simp [release, serves.queue_eq], serves.queue_eq, ?_, nofun, nofun⟩
  change semaphore.free + 1 + out = capacity
  omega

/-- Somebody waits: the permit goes to the first in line and stays out. -/
theorem release_of_cons {first : ι} {rest : List ι}
    (serves : Serves capacity (first :: rest) out semaphore) :
    semaphore.release = (some first, { semaphore with queue := rest }) ∧
      Serves capacity rest out { semaphore with queue := rest } := by
  have free := serves.busy (List.cons_ne_nil _ _)
  have opened := serves.open_of_line (List.cons_ne_nil _ _)
  exact ⟨by simp [release, serves.queue_eq], rfl, serves.balance, fun _ => free, fun _ => opened⟩

/-! ## Leaving the line, and closing -/

theorem withdraw [DecidableEq ι] (serves : Serves capacity line out semaphore) (who : ι) :
    Serves capacity (line.erase who) out (semaphore.withdraw who) := by
  have some : line.erase who ≠ [] → line ≠ [] := by
    rintro remains rfl
    exact remains rfl
  exact ⟨congrArg (List.erase · who) serves.queue_eq, serves.balance,
    fun remains => serves.busy (some remains), fun remains => serves.open_of_line (some remains)⟩

theorem close (serves : Serves capacity line out semaphore) :
    Serves capacity [] out semaphore.close :=
  ⟨rfl, serves.balance, nofun, nofun⟩

end Serves

end Turnstile.Semaphore
