import Mathlib.Data.List.Induction
import Turnstile.Proofs.Semaphore

/-!
# What is assumed of semaphores

Gates and servers keep their permits in semaphores that somebody else provides.  What is
assumed of these is stated here, in terms of nothing but what they were asked and what they
answered: permits are counted, the line for them is first in first out, and a caller who is
woken takes the permit before anything else happens.  `Semaphore` obeys these laws, and
whatever obeys them answers as `Semaphore` does.
-/

namespace Turnstile.Semaphore

variable {ι : Type}

/-! ## Asking and answering -/

/-- What can be asked of a semaphore. -/
inductive Call (ι : Type) where
  | acquire (who : ι)
  | release
  | withdraw (who : ι)
  | close
  deriving DecidableEq, Repr

/-- What was asked, with the answer. -/
inductive Event (ι : Type) where
  | acquired (who : ι) (grant : Grant)
  /-- A caller who is woken looks for the permit at once. -/
  | released (woken : Option (ι × Grant))
  | withdrawn (who : ι)
  | closed
  deriving DecidableEq, Repr

namespace Event

def isReturn : Event ι → Bool
  | .released _ => true
  | _ => false

/-- Somebody has a permit in hand. -/
def isGrant : Event ι → Bool
  | .acquired _ .granted => true
  | .released (some (_, .granted)) => true
  | _ => false

variable [DecidableEq ι]

/-- The line after an event. -/
def line (line : List ι) : Event ι → List ι
  | .acquired who .queued => line ++ [who]
  | .acquired _ _ => line
  | .released none => line
  | .released (some (who, _)) => line.erase who
  | .withdrawn who => line.erase who
  | .closed => []

end Event

/-- The permits that are free after some events. -/
def freeAfter (capacity : Nat) (events : List (Event ι)) : Nat :=
  capacity + events.countP Event.isReturn - events.countP Event.isGrant

/-- The line after some events. -/
def lineAfter [DecidableEq ι] (events : List (Event ι)) : List ι :=
  events.foldl Event.line []

theorem lineAfter_concat [DecidableEq ι] (events : List (Event ι)) (event : Event ι) :
    lineAfter (events ++ [event]) = event.line (lineAfter events) :=
  List.foldl_append

/-! ## Services -/

/-- A semaphore as its callers know it. -/
structure Service (ι : Type) where
  State : Type
  start : Nat → State
  acquire : ι → State → Grant × State
  /-- A permit comes back, and somebody in line may be woken. -/
  release : State → Option ι × State
  /-- A caller who was woken looks for the permit. -/
  resume : ι → State → Grant × State
  withdraw : ι → State → State
  close : State → State
  available : State → Nat
  isClosed : State → Bool
  /-- A caller who does not want to wait is told that there is no permit. -/
  isBusy : State → Bool

namespace Service

variable (service : Service ι)

def perform (state : service.State) : Call ι → Event ι × service.State
  | .acquire who =>
    let (grant, next) := service.acquire who state
    (.acquired who grant, next)
  | .release =>
    let (woken, next) := service.release state
    match woken with
    | none => (.released none, next)
    | some who =>
      let (grant, last) := service.resume who next
      (.released (some (who, grant)), last)
  | .withdraw who => (.withdrawn who, service.withdraw who state)
  | .close => (.closed, service.close state)

theorem perform_release_of_none {state : service.State}
    (idle : (service.release state).1 = none) :
    service.perform state .release = (.released none, (service.release state).2) := by
  simp only [perform, idle]

theorem perform_release_of_some {state : service.State} {who : ι}
    (woken : (service.release state).1 = some who) :
    service.perform state .release =
      (.released (some (who, (service.resume who (service.release state).2).1)),
        (service.resume who (service.release state).2).2) := by
  simp only [perform, woken]

/-- All that was asked and answered, and the state it has led to. -/
def follow (capacity : Nat) (calls : List (Call ι)) : List (Event ι) × service.State :=
  calls.foldl
    (fun (events, state) call =>
      (events ++ [(service.perform state call).1], (service.perform state call).2))
    ([], service.start capacity)

def eventsOf (capacity : Nat) (calls : List (Call ι)) : List (Event ι) :=
  (service.follow capacity calls).1

def stateAfter (capacity : Nat) (calls : List (Call ι)) : service.State :=
  (service.follow capacity calls).2

theorem eventsOf_concat (capacity : Nat) (calls : List (Call ι)) (call : Call ι) :
    service.eventsOf capacity (calls ++ [call]) =
      service.eventsOf capacity calls ++
        [(service.perform (service.stateAfter capacity calls) call).1] := by
  simp only [eventsOf, stateAfter, follow, List.foldl_append, List.foldl_cons,
    List.foldl_nil]

theorem stateAfter_concat (capacity : Nat) (calls : List (Call ι)) (call : Call ι) :
    service.stateAfter capacity (calls ++ [call]) =
      (service.perform (service.stateAfter capacity calls) call).2 := by
  simp only [stateAfter, follow, List.foldl_append, List.foldl_cons,
    List.foldl_nil]

variable [DecidableEq ι]

/-- How a semaphore stands, and what it will answer, after some events. -/
structure Stands (capacity : Nat) (events : List (Event ι)) (state : service.State) : Prop where
  /-- A closed semaphore sends callers away. -/
  refuses : .closed ∈ events → ∀ who, (service.acquire who state).1 = .refused
  /-- A permit that is free goes to whoever asks. -/
  grants : .closed ∉ events → 0 < freeAfter capacity events →
    ∀ who, (service.acquire who state).1 = .granted
  /-- Who finds none waits. -/
  queues : .closed ∉ events → freeAfter capacity events = 0 →
    ∀ who, (service.acquire who state).1 = .queued
  /-- First in, first out: a permit that comes back is for the first in line. -/
  wakes : (service.release state).1 = (lineAfter events).head?
  /-- A caller who is woken takes the permit before anything else happens. -/
  resumes : ∀ who, (service.release state).1 = some who →
    (service.resume who (service.release state).2).1 = .granted
  /-- Permits are neither lost nor made. -/
  available_eq : service.available state = freeAfter capacity events
  isClosed_iff : service.isClosed state = true ↔ .closed ∈ events
  isBusy_iff : service.isBusy state = true ↔ .closed ∉ events ∧ freeAfter capacity events = 0

/-- Whatever was asked of it, a semaphore stands as it should. -/
def Lawful : Prop :=
  ∀ capacity calls,
    service.Stands capacity (service.eventsOf capacity calls) (service.stateAfter capacity calls)

end Service

variable [DecidableEq ι]

/-- The answer that the laws leave. -/
def answer (capacity : Nat) (events : List (Event ι)) : Call ι → Event ι
  | .acquire who =>
    .acquired who
      (if .closed ∈ events then .refused
        else if 0 < freeAfter capacity events then .granted
        else .queued)
  | .release => .released ((lineAfter events).head?.map fun who => (who, .granted))
  | .withdraw who => .withdrawn who
  | .close => .closed

namespace Service

variable {service other : Service ι} {capacity : Nat}

theorem Stands.perform_eq {events : List (Event ι)} {state : service.State}
    (stands : service.Stands capacity events state) (call : Call ι) :
    (service.perform state call).1 = answer capacity events call := by
  cases call with
  | acquire who =>
      have grant : (service.acquire who state).1 =
          if .closed ∈ events then .refused
          else if 0 < freeAfter capacity events then .granted
          else .queued := by
        split
        · rename_i closed
          exact stands.refuses closed who
        · rename_i opened
          split
          · rename_i free
            exact stands.grants opened free who
          · rename_i busy
            exact stands.queues opened (Nat.eq_zero_of_not_pos busy) who
      exact congrArg (Event.acquired who) grant
  | release =>
      rw [answer, ← stands.wakes]
      cases woken : (service.release state).1 with
      | none => rw [perform_release_of_none service woken, Option.map_none]
      | some who =>
          rw [perform_release_of_some service woken, stands.resumes who woken, Option.map_some]
  | withdraw who => rfl
  | close => rfl

/-- Two services that obey the laws cannot be told apart by what they answer. -/
theorem Lawful.eventsOf_eq (lawful : service.Lawful) (also : other.Lawful) (capacity : Nat)
    (calls : List (Call ι)) : service.eventsOf capacity calls = other.eventsOf capacity calls := by
  induction calls using List.reverseRecOn with
  | nil => rfl
  | append_singleton calls call ih =>
      rw [eventsOf_concat, eventsOf_concat, (lawful capacity calls).perform_eq,
        (also capacity calls).perform_eq, ih]

end Service

/-! ## Semaphores are such a service -/

/-- A semaphore hands a permit over when it wakes a caller. -/
def service (ι : Type) [DecidableEq ι] : Service ι where
  State := Semaphore ι
  start capacity := { free := capacity }
  acquire := Semaphore.acquire
  release := Semaphore.release
  resume _ semaphore := (.granted, semaphore)
  withdraw := Semaphore.withdraw
  close := Semaphore.close
  available := Semaphore.free
  isClosed := Semaphore.isClosed
  isBusy := Semaphore.isBusy

omit [DecidableEq ι] in
/-- A permit more was there from the start, and is out. -/
theorem Serves.raise {capacity out : Nat} {line : List ι} {semaphore : Semaphore ι}
    (serves : semaphore.Serves capacity line out) :
    semaphore.Serves (capacity + 1) line (out + 1) := by
  have balance := serves.balance
  exact ⟨serves.queue_eq, by omega, serves.busy, serves.open_of_line⟩

/-- A semaphore stands as some events have left it. -/
structure Agrees (capacity : Nat) (events : List (Event ι)) (semaphore : Semaphore ι) : Prop where
  serves : semaphore.Serves (capacity + events.countP Event.isReturn) (lineAfter events)
    (events.countP Event.isGrant)
  isClosed_iff : semaphore.isClosed = true ↔ .closed ∈ events

namespace Agrees

variable {capacity : Nat} {events : List (Event ι)} {semaphore : Semaphore ι}

theorem start (capacity : Nat) : Agrees capacity [] ({ free := capacity } : Semaphore ι) :=
  ⟨.start capacity, by simp⟩

theorem free_eq (agrees : Agrees capacity events semaphore) :
    semaphore.free = freeAfter capacity events := by
  have balance := agrees.serves.balance
  rw [freeAfter]
  omega

theorem isClosed_eq_false_iff (agrees : Agrees capacity events semaphore) :
    semaphore.isClosed = false ↔ .closed ∉ events := by
  rw [← agrees.isClosed_iff, Bool.not_eq_true]

/-- Events other than closing leave a semaphore open or closed. -/
theorem concat {event : Event ι} {next : Semaphore ι} (agrees : Agrees capacity events semaphore)
    (same : next.isClosed = semaphore.isClosed) (other : event ≠ .closed)
    (serves : next.Serves
      (capacity + (events.countP Event.isReturn + [event].countP Event.isReturn))
      (event.line (lineAfter events))
      (events.countP Event.isGrant + [event].countP Event.isGrant)) :
    Agrees capacity (events ++ [event]) next := by
  constructor
  · rwa [List.countP_append, List.countP_append, lineAfter_concat]
  · rw [same, agrees.isClosed_iff, List.mem_append, List.mem_singleton]
    exact ⟨.inl, fun closed => closed.resolve_right other.symm⟩

theorem acquire (agrees : Agrees capacity events semaphore) (who : ι) :
    Agrees capacity (events ++ [.acquired who (semaphore.acquire who).1])
      (semaphore.acquire who).2 := by
  cases state : semaphore.isClosed with
  | true =>
      rw [acquire_of_closed who state]
      exact agrees.concat rfl nofun agrees.serves
  | false =>
      rcases Nat.eq_zero_or_pos semaphore.free with busy | free
      · rw [acquire_of_busy who state busy]
        exact agrees.concat rfl nofun (agrees.serves.enqueue who state busy)
      · rw [acquire_of_free who state free]
        exact agrees.concat rfl nofun (agrees.serves.grant free)

/-- Nobody waits: the permit becomes free. -/
theorem release_of_nil (agrees : Agrees capacity events semaphore) (idle : lineAfter events = []) :
    semaphore.release = (none, { semaphore with free := semaphore.free + 1 }) ∧
      Agrees capacity (events ++ [.released none])
        { semaphore with free := semaphore.free + 1 } := by
  have serves := agrees.serves.raise
  rw [idle] at serves
  obtain ⟨released, frees⟩ := serves.release_of_nil
  refine ⟨released, agrees.concat rfl nofun ?_⟩
  rw [idle]
  exact frees

/-- Somebody waits: the permit goes to the first in line. -/
theorem release_of_cons {first : ι} {rest : List ι} (agrees : Agrees capacity events semaphore)
    (waits : lineAfter events = first :: rest) :
    semaphore.release = (some first, { semaphore with queue := rest }) ∧
      Agrees capacity (events ++ [.released (some (first, .granted))])
        { semaphore with queue := rest } := by
  have serves := agrees.serves.raise
  rw [waits] at serves
  obtain ⟨released, handsOver⟩ := serves.release_of_cons
  refine ⟨released, agrees.concat rfl nofun ?_⟩
  rw [waits, Event.line, List.erase_cons_head]
  exact handsOver

theorem withdraw (agrees : Agrees capacity events semaphore) (who : ι) :
    Agrees capacity (events ++ [.withdrawn who]) (semaphore.withdraw who) :=
  agrees.concat rfl nofun (agrees.serves.withdraw who)

theorem close (agrees : Agrees capacity events semaphore) :
    Agrees capacity (events ++ [.closed]) semaphore.close := by
  constructor
  · rw [List.countP_append, List.countP_append, lineAfter_concat]
    exact agrees.serves.close
  · exact iff_of_true rfl (List.mem_append_right _ List.mem_cons_self)

theorem perform (agrees : Agrees capacity events semaphore) (call : Call ι) :
    Agrees capacity (events ++ [((service ι).perform semaphore call).1])
      ((service ι).perform semaphore call).2 := by
  cases call with
  | acquire who => exact agrees.acquire who
  | release =>
      cases waits : lineAfter events with
      | nil =>
          obtain ⟨released, next⟩ := agrees.release_of_nil waits
          rw [Service.perform_release_of_none (service ι) (congrArg Prod.fst released)]
          change Agrees capacity _ semaphore.release.2
          rw [released]
          exact next
      | cons first rest =>
          obtain ⟨released, next⟩ := agrees.release_of_cons waits
          rw [Service.perform_release_of_some (service ι) (congrArg Prod.fst released)]
          change Agrees capacity _ semaphore.release.2
          rw [released]
          exact next
  | withdraw who => exact agrees.withdraw who
  | close => exact agrees.close

/-- A semaphore that some events have left so answers as the laws say. -/
theorem stands (agrees : Agrees capacity events semaphore) :
    (service ι).Stands capacity events semaphore where
  refuses closed who := congrArg Prod.fst (acquire_of_closed who (agrees.isClosed_iff.mpr closed))
  grants opened free who := by
    rw [← agrees.free_eq] at free
    exact congrArg Prod.fst (acquire_of_free who (agrees.isClosed_eq_false_iff.mpr opened) free)
  queues opened busy who := by
    rw [← agrees.free_eq] at busy
    exact congrArg Prod.fst (acquire_of_busy who (agrees.isClosed_eq_false_iff.mpr opened) busy)
  wakes := by
    cases waits : lineAfter events with
    | nil => exact congrArg Prod.fst (agrees.release_of_nil waits).1
    | cons first rest => exact congrArg Prod.fst (agrees.release_of_cons waits).1
  resumes _ _ := rfl
  available_eq := agrees.free_eq
  isClosed_iff := agrees.isClosed_iff
  isBusy_iff := by
    rw [← agrees.free_eq, ← agrees.isClosed_eq_false_iff]
    exact isBusy_eq_true_iff

end Agrees

theorem agrees_stateAfter (capacity : Nat) (calls : List (Call ι)) :
    Agrees capacity ((service ι).eventsOf capacity calls)
      ((service ι).stateAfter capacity calls) := by
  induction calls using List.reverseRecOn with
  | nil => exact .start capacity
  | append_singleton calls call ih =>
      rw [Service.eventsOf_concat, Service.stateAfter_concat]
      exact ih.perform call

theorem lawful_service : (service ι).Lawful :=
  fun capacity calls => (agrees_stateAfter capacity calls).stands

/-- What a service tells about the permits and the answers it gave are those of a semaphore. -/
structure Service.AnswersAlike (other : Service ι) (capacity : Nat) (calls : List (Call ι)) :
    Prop where
  events : other.eventsOf capacity calls = (service ι).eventsOf capacity calls
  available : other.available (other.stateAfter capacity calls) =
    ((service ι).stateAfter capacity calls).free
  isClosed : other.isClosed (other.stateAfter capacity calls) =
    ((service ι).stateAfter capacity calls).isClosed
  isBusy : other.isBusy (other.stateAfter capacity calls) =
    ((service ι).stateAfter capacity calls).isBusy

/-- Whatever is asked of it, a service that obeys the laws answers as a semaphore does. -/
theorem Service.Lawful.answersAlike {other : Service ι} (lawful : other.Lawful) (capacity : Nat)
    (calls : List (Call ι)) : other.AnswersAlike capacity calls := by
  have events := lawful.eventsOf_eq lawful_service capacity calls
  have stands := lawful capacity calls
  have ours := (agrees_stateAfter capacity calls).stands
  rw [events] at stands
  constructor
  · exact events
  · exact stands.available_eq.trans ours.available_eq.symm
  · exact Bool.eq_iff_iff.mpr (stands.isClosed_iff.trans ours.isClosed_iff.symm)
  · exact Bool.eq_iff_iff.mpr (stands.isBusy_iff.trans ours.isBusy_iff.symm)

end Turnstile.Semaphore
