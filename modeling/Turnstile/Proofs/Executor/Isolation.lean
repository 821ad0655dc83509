import Turnstile.Proofs.Executor.Shutdown
import Turnstile.Proofs.Renaming

/-!
# Isolation

The gates of an executor, and its pool, do not interfere with each other.  A gate
comes to the same states as it would by itself under the calls that are made there,
with its callers known by nothing but the order in which they came.  What is done
elsewhere neither changes the gate nor any run that asks there.
-/

namespace Turnstile

/-! ## What happens at one place -/

/-- A gate, or a pool. -/
inductive Spot (ι : Type) where
  | ofGate (gate : Gate ι)
  | ofPool (pool : Pool ι)

/-- What is done at a gate or at a pool. -/
inductive Call (ι : Type) where
  | arrives (who : ι)
  /-- Stops waiting, or gives back what it holds. -/
  | leaves (who : ι)
  /-- Gives a server back, and keeps the closed lease. -/
  | closesLease (who : ι)
  | shut
  deriving DecidableEq, Repr

namespace Call

variable {ι κ : Type}

def atGate : Call ι → List (Gate.Action ι)
  | .arrives who => [.acquire who]
  | .leaves who => [.cancel who, .release who]
  | .closesLease _ => []
  | .shut => [.close]

def atPool : Call ι → List (Pool.Action ι)
  | .arrives who => [.acquire who]
  | .leaves who => [.cancel who, .drop who]
  | .closesLease who => [.closeLease who]
  | .shut => [.close]

/-- The call of the caller under its other name. -/
def renamed (rename : ι → κ) : Call ι → Call κ
  | .arrives who => .arrives (rename who)
  | .leaves who => .leaves (rename who)
  | .closesLease who => .closesLease (rename who)
  | .shut => .shut

theorem atGate_renamed (rename : ι → κ) (call : Call ι) :
    (call.renamed rename).atGate = call.atGate.map (Gate.Action.renamed rename) := by
  cases call <;> rfl

theorem atPool_renamed (rename : ι → κ) (call : Call ι) :
    (call.renamed rename).atPool = call.atPool.map (Pool.Action.renamed rename) := by
  cases call <;> rfl

end Call

namespace Spot

variable {ι κ : Type}

/-- The callers so far, in order of arrival. -/
def names : Spot ι → List ι
  | .ofGate gate => gate.claims.names
  | .ofPool pool => pool.claims.names

def renamed (rename : ι → κ) : Spot ι → Spot κ
  | .ofGate gate => .ofGate (gate.renamed rename)
  | .ofPool pool => .ofPool (pool.renamed rename)

variable [DecidableEq ι] [DecidableEq κ]

def Consistent : Spot ι → Prop
  | .ofGate gate => gate.Consistent
  | .ofPool pool => pool.Consistent

def call : Spot ι → Call ι → Spot ι
  | .ofGate gate, call => .ofGate (gate.run call.atGate)
  | .ofPool pool, call => .ofPool (pool.run call.atPool)

def calls (spot : Spot ι) (calls : List (Call ι)) : Spot ι :=
  calls.foldl call spot

theorem calls_append (spot : Spot ι) (first second : List (Call ι)) :
    spot.calls (first ++ second) = (spot.calls first).calls second :=
  List.foldl_append

theorem Consistent.call {spot : Spot ι} (consistent : spot.Consistent) (call : Call ι) :
    (spot.call call).Consistent := by
  cases spot with
  | ofGate gate => exact Gate.Consistent.run consistent _
  | ofPool pool => exact Pool.Consistent.run consistent _

theorem Consistent.names_call {spot : Spot ι} (consistent : spot.Consistent) (call : Call ι) :
    spot.names <+: (spot.call call).names := by
  cases spot with
  | ofGate gate => exact Gate.Consistent.names_run consistent _
  | ofPool pool => exact Pool.Consistent.names_run consistent _

theorem Consistent.names_calls {spot : Spot ι} (consistent : spot.Consistent)
    (calls : List (Call ι)) : spot.names <+: (spot.calls calls).names := by
  induction calls generalizing spot with
  | nil => exact List.prefix_rfl
  | cons call calls ih => exact (consistent.names_call call).trans (ih (consistent.call call))

variable {rename other : ι → κ}

omit [DecidableEq κ] in
theorem Consistent.renamed_congr {spot : Spot ι} (consistent : spot.Consistent)
    (same : ∀ who ∈ spot.names, rename who = other who) :
    spot.renamed rename = spot.renamed other := by
  cases spot with
  | ofGate gate => exact congrArg Spot.ofGate (Gate.Consistent.renamed_congr consistent same)
  | ofPool pool => exact congrArg Spot.ofPool (Pool.Consistent.renamed_congr consistent same)

theorem renamed_calls (injective : rename.Injective) (spot : Spot ι) (calls : List (Call ι)) :
    (spot.calls calls).renamed rename =
      (spot.renamed rename).calls (calls.map (Call.renamed rename)) := by
  induction calls generalizing spot with
  | nil => rfl
  | cons call calls ih =>
      have one : (spot.call call).renamed rename =
          (spot.renamed rename).call (call.renamed rename) := by
        cases spot with
        | ofGate gate =>
            simp only [Spot.call, Spot.renamed, Gate.renamed_run injective, Call.atGate_renamed]
        | ofPool pool =>
            simp only [Spot.call, Spot.renamed, Pool.renamed_run injective, Call.atPool_renamed]
      change ((spot.call call).calls calls).renamed rename = _
      rw [ih, one]
      rfl

/-! ### Callers by number -/

/-- The number of a caller in the order of arrival; who has not come is numbered behind. -/
def number (names : List Ticket) (ticket : Ticket) : Nat :=
  if ticket ∈ names then names.idxOf ticket else names.length + ticket

theorem number_injective (names : List Ticket) : (number names).Injective := by
  intro first second same
  simp only [number] at same
  by_cases one : first ∈ names
  · have bound : names.idxOf first < names.length := List.idxOf_lt_length_of_mem one
    by_cases other : second ∈ names
    · rw [if_pos one, if_pos other] at same
      exact (List.idxOf_inj one).mp same
    · rw [if_pos one, if_neg other] at same
      omega
  · by_cases other : second ∈ names
    · have bound : names.idxOf second < names.length := List.idxOf_lt_length_of_mem other
      rw [if_neg one, if_pos other] at same
      omega
    · rw [if_neg one, if_neg other] at same
      exact Nat.add_left_cancel same

theorem number_eq_of_isPrefix {names later : List Ticket} (grows : names <+: later) {ticket : Ticket}
    (member : ticket ∈ names) : number names ticket = number later ticket := by
  obtain ⟨more, rfl⟩ := grows
  rw [number, number, if_pos member, if_pos (List.mem_append_left _ member),
    List.idxOf_append_of_mem member]

/-- The gate or pool with its callers known by their numbers. -/
def view (spot : Spot Ticket) : Spot Nat :=
  spot.renamed (number spot.names)

/-- Callers that are known by their numbers have the same say. -/
theorem Consistent.view_calls {spot : Spot Ticket} (consistent : spot.Consistent)
    (calls : List (Call Ticket)) :
    (spot.calls calls).view =
      spot.view.calls (calls.map (Call.renamed (number (spot.calls calls).names))) := by
  have grows := consistent.names_calls calls
  rw [view, renamed_calls (number_injective _), view]
  congr 1
  exact consistent.renamed_congr fun who member => (number_eq_of_isPrefix grows member).symm

end Spot

/-! ## What an action does at a place -/

theorem Action.not_concerns {action : Action} {ticket other : Ticket}
    (about : action.subject? = some ticket) (different : ticket ≠ other) :
    ¬ action.concerns other = true := by
  cases action <;> simp_all [Action.concerns, Action.subject?]

namespace Run

/-- A run is over that was not. -/
def endsAs (run later : Run) : Bool :=
  !run.stage.isOver && later.stage.isOver

/-- Time ends a run alike, whether or not it has been let in or sent away meanwhile. -/
theorem Proceeds.endsAs_supervised {servers : List Endpoint} {run later : Run}
    (proceeds : run.Proceeds servers later) (change : Supervision → Supervision) :
    later.endsAs (later.supervised change) = run.endsAs (run.supervised change) := by
  have idle {run : Run} (idle : run.stage ≠ .active) :
      run.endsAs (run.supervised change) = false := by
    rw [supervised_of_not_active change idle]
    simp [endsAs]
  have waits (waiting : run.stage = .waiting) : run.stage ≠ .active := by
    rw [waiting]
    nofun
  cases proceeds with
  | stays => rfl
  | passed waiting => rw [idle (waits waiting), idle (by nofun)]
  | leased waiting => rw [idle (waits waiting), idle (by nofun)]
  | sentAway waiting => rw [idle (waits waiting), idle (by nofun)]

end Run

namespace Executor

variable {executor : Executor} {ticket : Ticket} {run later : Run}

def spot (executor : Executor) : Option Category → Spot Ticket
  | none => .ofPool executor.pool
  | some category => .ofGate (executor.gates category)

theorem standing_congr {other : Executor} {place : Option Category}
    (same : other.spot place = executor.spot place) :
    other.standing place ticket = executor.standing place ticket := by
  cases place with
  | none => exact congrArg (Pool.standing · ticket) (Spot.ofPool.inj same)
  | some category => exact congrArg (Gate.standing · ticket) (Spot.ofGate.inj same)

/-- Whether the run with this ticket asks at a place, and ends if it becomes what `change` makes. -/
def endsBy (executor : Executor) (place : Option Category) (change : Run → Run)
    (ticket : Ticket) : Bool :=
  (executor.run? ticket).any fun run => decide (run.place = place) && run.endsAs (change run)

theorem spot_setGate (executor : Executor) (own place : Category) (gate : Gate Ticket) :
    (executor.setGate own gate).spot (some place) =
      if some own = some place then .ofGate gate else executor.spot (some place) := by
  rw [spot, gates_setGate]
  by_cases same : own = place
  · rw [if_pos same.symm, if_pos (congrArg some same)]
  · rw [if_neg (Ne.symm same), if_neg fun equal => same (Option.some.inj equal)]
    rfl

theorem spot_vacate (executor : Executor) (ticket : Ticket) (own place : Option Category) :
    (executor.vacate ticket own).spot place =
      (executor.spot place).calls (if own = place then [.leaves ticket] else []) := by
  cases own with
  | none => cases place <;> rfl
  | some own =>
      cases place with
      | none => rfl
      | some place =>
          rw [vacate, spot_setGate]
          split
          · rename_i same
            cases same
            rfl
          · rfl

theorem spot_arrive (executor : Executor) (own place : Option Category) :
    (executor.arrive own).spot place =
      (executor.spot place).calls (if own = place then [.arrives executor.issued] else []) := by
  cases own with
  | none => cases place <;> rfl
  | some own =>
      cases place with
      | none => rfl
      | some place =>
          rw [arrive, spot_setGate]
          split
          · rename_i same
            cases same
            rfl
          · rfl

theorem spot_finish (executor : Executor) (ticket : Ticket) (run : Run) (outcome : Outcome)
    (place : Option Category) :
    (executor.finish ticket run outcome).spot place =
      (executor.spot place).calls (if run.place = place then [.leaves ticket] else []) := by
  rw [finish, leave_setRun]
  exact spot_vacate executor ticket run.place place

/-- A run that goes on with its supervision leaves its place if the supervision is over. -/
theorem spot_keep (executor : Executor) (ticket : Ticket) (run : Run) (supervision : Supervision)
    (place : Option Category) :
    (executor.keep ticket run supervision).spot place =
      (executor.spot place).calls
        (if run.place = place ∧ run.endsAs (run.kept supervision) = true then [.leaves ticket]
          else []) := by
  simp only [keep]
  split
  · rename_i outcome active finished
    have ends : run.endsAs (run.kept supervision) = true := by
      simp [Run.endsAs, Run.kept, active, finished, RunStage.isOver]
    rw [spot_finish]
    simp only [ends, and_true]
    rfl
  · rename_i goes
    have stays : run.endsAs (run.kept supervision) = false := by
      unfold Run.kept
      split
      · rename_i outcome active finished
        exact absurd finished (goes outcome active)
      · simp [Run.endsAs]
    simp only [stays, Bool.false_eq_true, and_false, if_false]
    rfl

theorem spot_supervise (executor : Executor) (ticket : Ticket)
    (change : Supervision → Supervision) (place : Option Category) :
    (executor.supervise ticket change).spot place =
      (executor.spot place).calls
        (if executor.endsBy place (Run.supervised change) ticket = true then [.leaves ticket]
          else []) := by
  cases known : executor.run? ticket with
  | none => simp [supervise, endsBy, known, Spot.calls]
  | some run =>
      cases process : run.supervision with
      | none => simp [supervise, endsBy, known, process, Spot.calls, Run.supervised, Run.endsAs]
      | some before =>
          simp only [supervise, endsBy, known, process, Option.any_some, Run.supervised,
            Bool.and_eq_true, decide_eq_true_eq]
          exact spot_keep _ ticket run (change before) place

theorem spot_launch (executor : Executor) (ticket : Ticket) (now : Time)
    (probe : String → PathKind) (spawned : Except String Answers) (place : Option Category) :
    (executor.launch ticket now probe spawned).spot place =
      (executor.spot place).calls
        (if executor.endsBy place (fun run =>
            run.launched executor.runner (executor.limitOf run) now probe spawned) ticket = true
          then [.leaves ticket] else []) := by
  cases known : executor.run? ticket with
  | none => simp [launch, endsBy, known, Spot.calls]
  | some run =>
      cases stage : run.stage with
      | admitted request =>
          simp only [launch, endsBy, known, stage, Option.any_some, Run.launched]
          cases started : executor.runner.start now (executor.limitOf run) request.argv
              (executor.runner.check probe request.argv) spawned with
          | error failure =>
              simp only [spot_finish, Run.endsAs, stage, RunStage.isOver, Bool.not_false,
                Bool.and_true, decide_eq_true_eq]
              rfl
          | ok supervision =>
              have running := Supervision.outcome?_of_isOpen (Runner.isOpen_of_start started)
              simp only [spot_keep, Run.endsAs, Run.kept, running, RunStage.isOver,
                Bool.and_false, Bool.false_eq_true, and_false, if_false]
              rfl
      | _ => simp [launch, endsBy, known, stage, Spot.calls, Run.launched, Run.endsAs]

theorem spot_abandon (executor : Executor) (ticket : Ticket) (place : Option Category) :
    (executor.abandon ticket).spot place =
      (executor.spot place).calls
        (if executor.endsBy place Run.givenUp ticket = true then [.leaves ticket] else []) := by
  cases known : executor.run? ticket with
  | none => simp [abandon, endsBy, known, Spot.calls]
  | some run =>
      have left (given : Run) (same : given.place = run.place) :
          ((executor.setRun ticket given).leave ticket given).spot place =
            (executor.spot place).calls (if run.place = place then [.leaves ticket] else []) := by
        rw [leave_setRun, ← same]
        exact spot_vacate executor ticket given.place place
      cases stage : run.stage with
      | ended outcome => simp [abandon, endsBy, known, stage, Spot.calls, Run.givenUp, Run.endsAs]
      | cancelled => simp [abandon, endsBy, known, stage, Spot.calls, Run.givenUp, Run.endsAs]
      | _ =>
          simp only [abandon, endsBy, known, stage, Option.any_some, Run.givenUp, Run.endsAs,
            RunStage.isOver, Bool.not_false, Bool.and_true, decide_eq_true_eq]
          exact left _ rfl

theorem Makes.endsBy_supervised {after : Executor} (makes : executor.Makes after ticket id)
    (place : Option Category) (change : Supervision → Supervision) :
    after.endsBy place (Run.supervised change) ticket =
      executor.endsBy place (Run.supervised change) ticket := by
  obtain ⟨fate, same, goes⟩ := makes
  rw [endsBy, endsBy, same, Option.any_map]
  congr 1
  funext run
  have proceeds : run.Proceeds executor.pool.endpoints (fate run) := goes run
  simp only [proceeds.place, proceeds.endsAs_supervised]

/-- Time ends runs one after another, and each of them leaves its place. -/
theorem spot_elapse_all {capacities : Capacities} {reaped : Ticket → Prop}
    (coherent : executor.Coherent capacities reaped) (now : Time) (place : Option Category)
    {tickets : List Ticket} (distinct : tickets.Nodup) :
    (tickets.foldl (fun executor ticket => executor.supervise ticket (·.elapse now))
        executor).spot place =
      (executor.spot place).calls
        ((tickets.filter (executor.endsBy place (Run.supervised (·.elapse now)))).map
          .leaves) := by
  induction tickets generalizing executor with
  | nil => rfl
  | cons first tickets ih =>
      obtain ⟨fresh, distinct⟩ := List.nodup_cons.mp distinct
      have supervised : (executor.supervise first (·.elapse now)).Coherent capacities reaped :=
        coherent.supervise fun supervision => supervision.letsGo_elapse now
      have others : tickets.filter ((executor.supervise first (·.elapse now)).endsBy place
            (Run.supervised (·.elapse now))) =
          tickets.filter (executor.endsBy place (Run.supervised (·.elapse now))) := by
        refine List.filter_congr fun ticket member => ?_
        have different : ticket ≠ first := fun same => fresh (same ▸ member)
        exact (makes_supervise_of_ne coherent.settled.pool different _).endsBy_supervised place _
      rw [List.foldl_cons, ih supervised distinct, others, spot_supervise, ← Spot.calls_append,
        List.filter_cons]
      split <;> rfl

end Executor

namespace World

variable {setup : Setup} {world : World} {place : Option Category}

/-- The runs that ask at a place and are ended by an action, in order of arrival. -/
def endings (world : World) (place : Option Category) (action : Action) : List Ticket :=
  (Claims.names world.executor.runs).filter fun ticket =>
    world.executor.endsBy place
      (fun run => run.heed world.executor.runner (world.executor.limitOf run) ticket action) ticket

/-- A caller that is not a run does something at a place, if it has ever come there. -/
def directly (world : World) (place own : Option Category) (ticket : Ticket)
    (call : Call Ticket) : List (Call Ticket) :=
  if own = place ∧ world.executor.run? ticket = none ∧
    world.executor.standing place ticket ≠ .absent then [call] else []

/-- A new ticket asks at a place. -/
def arriving (world : World) (place own : Option Category) : List (Call Ticket) :=
  if own = place then [.arrives world.executor.issued] else []

/-- What an action does at a place: who comes there, and who leaves. -/
def callsAt (setup : Setup) (place : Option Category) (world : World) :
    Action → List (Call Ticket)
  | .begin category request =>
    world.arriving place
      (Run.place { category, request, pooled := setup.usesPool category request.argv })
  | .hold category => world.arriving place (some category)
  | .lease => world.arriving place none
  | .release category ticket => world.directly place (some category) ticket (.leaves ticket)
  | .closeLease ticket => world.directly place none ticket (.closesLease ticket)
  | .dropLease ticket => world.directly place none ticket (.leaves ticket)
  | .shutdown => [.shut]
  | action => (world.endings place action).map .leaves

/-- A direct caller that has never come to a place does nothing there. -/
theorem spot_direct {own : Option Category} {ticket : Ticket} {call : Call Ticket}
    {change : Executor → Executor}
    (changes : (change world.executor).spot place =
      (world.executor.spot place).calls (if own = place then [call] else []))
    (absent : world.executor.standing own ticket = .absent →
      (change world.executor).spot place = world.executor.spot place) :
    (world.direct ticket change).executor.spot place =
      (world.executor.spot place).calls (world.directly place own ticket call) := by
  unfold World.direct directly
  cases known : world.executor.run? ticket with
  | some run => simp [Spot.calls]
  | none =>
      simp only [Option.isSome_none, Bool.false_eq_true, if_false, true_and]
      by_cases here : own = place
      · subst here
        by_cases came : world.executor.standing own ticket = .absent
        · simp [came, absent came, Spot.calls]
        · simpa [came] using changes
      · simpa [here] using changes

/-- An action about one run ends that run or none. -/
theorem leaves_endings (distinct : (Claims.names world.executor.runs).Nodup)
    (place : Option Category) (action : Action) (ticket : Ticket) (change : Run → Run)
    (own : ∀ run : Run,
      run.heed world.executor.runner (world.executor.limitOf run) ticket action = change run)
    (others : ∀ (run : Run) (other : Ticket), other ≠ ticket →
      run.heed world.executor.runner (world.executor.limitOf run) other action = run) :
    (world.endings place action).map Call.leaves =
      if world.executor.endsBy place change ticket = true then [.leaves ticket] else [] := by
  have alike (other : Ticket) : world.executor.endsBy place (fun run =>
      run.heed world.executor.runner (world.executor.limitOf run) other action) other =
        (world.executor.endsBy place change ticket && other == ticket) := by
    by_cases same : other = ticket
    · subst same
      simp only [own, beq_self_eq_true, Bool.and_true]
    · simp [Executor.endsBy, others _ _ same, Run.endsAs, same]
  unfold endings
  simp only [alike]
  split
  · rename_i ends
    have member : ticket ∈ Claims.names world.executor.runs := by
      by_contra unknown
      have fresh : world.executor.run? ticket = none := Claims.get?_eq_none_iff.mpr unknown
      simp [Executor.endsBy, fresh] at ends
    simp only [ends, Bool.true_and]
    rw [List.filter_beq, List.count_eq_one_of_mem distinct member]
    rfl
  · rename_i stays
    simp [stays]

theorem Coherent.spot_step (coherent : world.Coherent setup) (place : Option Category)
    (action : Action) :
    (world.step action).executor.spot place =
      (world.executor.spot place).calls (world.callsAt setup place action) := by
  have vacate (other : Ticket) (own : Option Category) :
      (world.direct other fun executor => (executor.vacate other own).refresh).executor.spot place =
        (world.executor.spot place).calls (world.directly place own other (.leaves other)) := by
    refine spot_direct (Executor.spot_vacate world.executor other own place) fun absent => ?_
    rw [Executor.vacate_of_absent absent]
    rfl
  cases action with
  | begin category request =>
      rw [callsAt, ← coherent.usesPool, World.step, Executor.begin_eq]
      exact Executor.spot_arrive world.executor _ place
  | hold category => exact Executor.spot_arrive world.executor (some category) place
  | lease => exact Executor.spot_arrive world.executor none place
  | release category other => exact vacate other (some category)
  | closeLease other =>
      refine spot_direct ?_ fun absent => ?_
      · cases place <;> rfl
      · have fresh := Pool.standing_eq_absent_iff.mp absent
        have idle : world.executor.pool.closeLease other = world.executor.pool :=
          Pool.closeLease_of_not_leased fun slot => by simp [fresh]
        cases place with
        | none => exact congrArg Spot.ofPool idle
        | some category => rfl
  | dropLease other => exact vacate other none
  | launch other now probe spawned =>
      have ends := leaves_endings coherent.settled.names place
        (.launch other now probe spawned) other
        (fun run =>
          run.launched world.executor.runner (world.executor.limitOf run) now probe spawned)
        (fun _ => if_pos rfl) (fun _ _ different => if_neg (Ne.symm different))
      change _ = (world.executor.spot place).calls ((world.endings place _).map .leaves)
      rw [ends]
      exact Executor.spot_launch world.executor other now probe spawned place
  | observe other now event =>
      have ends := leaves_endings coherent.settled.names place (.observe other now event) other
        (Run.supervised (·.observe now event))
        (fun _ => if_pos rfl) (fun _ _ different => if_neg (Ne.symm different))
      change _ = (world.executor.spot place).calls ((world.endings place _).map .leaves)
      rw [ends]
      exact Executor.spot_supervise world.executor other _ place
  | elapse now => exact Executor.spot_elapse_all coherent now place coherent.settled.names
  | abandon other =>
      have ends := leaves_endings coherent.settled.names place (.abandon other) other Run.givenUp
        (fun _ => if_pos rfl) (fun _ _ different => if_neg (Ne.symm different))
      change _ = (world.executor.spot place).calls ((world.endings place _).map .leaves)
      rw [ends]
      exact Executor.spot_abandon world.executor other place
  | shutdown => cases place <;> rfl

/-! ## Over a run -/

/-- A gate or the pool with its callers known by the order in which they came. -/
def view (world : World) (place : Option Category) : Spot Nat :=
  (world.executor.spot place).view

/-- What some actions do at a place, with its callers known by the order in which they came. -/
def callsFrom (setup : Setup) (place : Option Category) (world : World) :
    List Action → List (Call Nat)
  | [] => []
  | action :: actions =>
    (world.callsAt setup place action).map
        (Call.renamed (Spot.number ((world.step action).executor.spot place).names)) ++
      callsFrom setup place (world.step action) actions

/-- What the actions done to a new executor do at a place. -/
def calls (setup : Setup) (place : Option Category) (actions : List Action) : List (Call Nat) :=
  callsFrom setup place { executor := setup.build } actions

/-- A gate or the pool as it was set up, by itself. -/
def lone (setup : Setup) : Option Category → Spot Nat
  | none => .ofPool (.of setup.resolved.1)
  | some category => .ofGate (.of category (setup.limitsFor category))

theorem Coherent.consistent_spot (coherent : world.Coherent setup) (place : Option Category) :
    (world.executor.spot place).Consistent := by
  cases place with
  | none => exact coherent.settled.pool
  | some category => exact coherent.settled.gates category

theorem Coherent.view_through (coherent : world.Coherent setup) (place : Option Category)
    (actions : List Action) :
    (world.through actions).view place =
      (world.view place).calls (world.callsFrom setup place actions) := by
  induction actions generalizing world with
  | nil => rfl
  | cons action actions ih =>
      have one : (world.step action).view place = (world.view place).calls
          ((world.callsAt setup place action).map
            (Call.renamed (Spot.number ((world.step action).executor.spot place).names))) := by
        rw [view, view, coherent.spot_step]
        exact (coherent.consistent_spot place).view_calls _
      change ((world.step action).through actions).view place = _
      rw [ih (coherent.step action), one, callsFrom, Spot.calls_append]

/-- A gate, and the pool, comes to what it would come to by itself. -/
theorem view_run (setup : Setup) (place : Option Category) (actions : List Action) :
    (World.run setup actions).view place =
      (lone setup place).calls (calls setup place actions) := by
  have start : World.view { executor := setup.build } place = lone setup place := by
    cases place with
    | none => exact congrArg Spot.ofPool (Pool.renamed_of _ _)
    | some category => rfl
  rw [← start]
  exact (coherent_build setup).view_through place actions

theorem calls_take_prefix (setup : Setup) (place : Option Category) (actions : List Action)
    (count : Nat) : calls setup place (actions.take count) <+: calls setup place actions := by
  unfold calls
  generalize ({ executor := setup.build } : World) = world
  induction actions generalizing world count with
  | nil => simp
  | cons action actions ih =>
      cases count with
      | zero => exact List.nil_prefix
      | succ count => exact (List.prefix_append_right_inj _).mpr (ih _ _)

/-! ## Who is concerned -/

variable {ticket : Ticket} {run : Run}

/-- Where nobody comes and nobody leaves, runs make of an action what they make of it alone. -/
theorem Coherent.run?_step_of_quiet (coherent : world.Coherent setup) {action : Action}
    (known : world.executor.run? ticket = some run)
    (quiet : world.callsAt setup run.place action = []) :
    (world.step action).executor.run? ticket =
      some (run.heed world.executor.runner (world.executor.limitOf run) ticket action) := by
  have old : ticket ≠ world.executor.issued := Nat.ne_of_lt (coherent.settled.issued known)
  obtain ⟨fate, same, goes⟩ := coherent.makes_step (.inl old)
  have proceeds := goes run
  rw [known, Option.map_some] at same
  rw [same]
  by_cases waiting : run.stage = .waiting
  · -- The run waits as before, as nothing has happened where it asks.
    have spot := coherent.spot_step run.place action
    rw [quiet] at spot
    have before := coherent.settled.fits known
    have after := (coherent.step action).settled.fits same
    have heeds := run.heeds_heed world.executor.runner (world.executor.limitOf run) ticket action
    rw [proceeds.place, heeds.place, Executor.standing_congr spot] at after
    rw [waiting] at before
    generalize world.executor.standing run.place ticket = standing at before after
    cases before
    generalize fate run = later at proceeds after
    cases proceeds with
    | stays => rfl
    | passed => cases after
    | leased => cases after
    | sentAway =>
        cases after with
        | ended out => exact absurd rfl out.1
  · rw [proceeds.eq_of_told ((run.heeds_heed _ _ _ _).told waiting)]

/-- The action has nothing to do with a place. -/
inductive Elsewhere (setup : Setup) (world : World) (place : Option Category) : Action → Prop where
  | begin {category : Category} {request : Request}
      (away : Run.place { category, request, pooled := setup.usesPool category request.argv } ≠
        place) : Elsewhere setup world place (.begin category request)
  | hold {category : Category} (away : some category ≠ place) :
      Elsewhere setup world place (.hold category)
  | lease (away : none ≠ place) : Elsewhere setup world place .lease
  | release {category : Category} {ticket : Ticket} (away : some category ≠ place) :
      Elsewhere setup world place (.release category ticket)
  | closeLease {ticket : Ticket} (away : none ≠ place) :
      Elsewhere setup world place (.closeLease ticket)
  | dropLease {ticket : Ticket} (away : none ≠ place) :
      Elsewhere setup world place (.dropLease ticket)
  /-- A run that asks elsewhere is started, watched or given up. -/
  | subject {action : Action} {ticket : Ticket} (about : action.subject? = some ticket)
      (away : ∀ run, world.executor.run? ticket = some run → run.place ≠ place) :
      Elsewhere setup world place action

/-- An action about a run that asks elsewhere ends nobody here. -/
theorem endings_of_away {action : Action} (about : action.subject? = some ticket)
    (away : ∀ run, world.executor.run? ticket = some run → run.place ≠ place) :
    world.endings place action = [] := by
  refine List.filter_eq_nil_iff.mpr fun other _ => ?_
  rw [Executor.endsBy]
  cases known : world.executor.run? other with
  | none => simp
  | some run =>
      by_cases same : ticket = other
      · subst same
        simp [away run known]
      · have still := Action.not_concerns about same
        simp [Run.heed_of_not_concerns still, Run.endsAs]

theorem Elsewhere.quiet {action : Action} (away : Elsewhere setup world place action) :
    world.callsAt setup place action = [] := by
  cases away with
  | begin away => exact if_neg away
  | hold away => exact if_neg away
  | lease away => exact if_neg away
  | release away => exact if_neg fun here => away here.1
  | closeLease away => exact if_neg fun here => away here.1
  | dropLease away => exact if_neg fun here => away here.1
  | subject about away =>
      have none := endings_of_away about away
      cases action with
      | launch => exact congrArg (List.map Call.leaves) none
      | observe => exact congrArg (List.map Call.leaves) none
      | abandon => exact congrArg (List.map Call.leaves) none
      | _ => cases about

theorem Elsewhere.heed {action : Action} (away : Elsewhere setup world place action)
    (known : world.executor.run? ticket = some run) (here : run.place = place)
    (runner : Runner) (limit : Time) : run.heed runner limit ticket action = run := by
  refine Run.heed_of_not_concerns ?_
  cases away with
  | subject about away =>
      refine Action.not_concerns about ?_
      rintro rfl
      exact away run known here
  | _ => simp [Action.concerns, Action.subject?]

/-! ## No interference -/

/-- What happens elsewhere has no part in what happens at a place. -/
structure Isolated (setup : Setup) (place : Option Category) : Prop where
  /-- It comes to what it would come to by itself, under the calls that are made there. -/
  alone : ∀ actions, (World.run setup actions).view place =
    (lone setup place).calls (calls setup place actions)
  /-- Whatever else is done, the same calls lead through the same states. -/
  states : ∀ first second, calls setup place first = calls setup place second → ∀ count other,
    (calls setup place (first.take count)).length =
        (calls setup place (second.take other)).length →
      (World.run setup (first.take count)).view place =
        (World.run setup (second.take other)).view place
  /-- Where nobody comes and nobody leaves, nobody is let in, made to wait or sent away. -/
  quiet : ∀ actions action, (World.run setup actions).callsAt setup place action = [] →
    ((World.run setup actions).step action).executor.spot place =
        (World.run setup actions).executor.spot place ∧
      ∀ ticket run, (World.run setup actions).executor.run? ticket = some run →
        run.place = place →
        ((World.run setup actions).step action).executor.run? ticket =
          some (run.heed setup.runner ((World.run setup actions).executor.limitOf run)
            ticket action)
  /-- What has nothing to do with a place changes neither the place nor the runs that ask there. -/
  elsewhere : ∀ actions action, Elsewhere setup (World.run setup actions) place action →
    ((World.run setup actions).step action).executor.spot place =
        (World.run setup actions).executor.spot place ∧
      ∀ ticket run, (World.run setup actions).executor.run? ticket = some run →
        run.place = place →
        ((World.run setup actions).step action).executor.run? ticket = some run

theorem view_eq_of_calls (setup : Setup) (place : Option Category) {first second : List Action}
    (same : calls setup place first = calls setup place second) (count other : Nat)
    (equally : (calls setup place (first.take count)).length =
      (calls setup place (second.take other)).length) :
    (World.run setup (first.take count)).view place =
      (World.run setup (second.take other)).view place := by
  have one := calls_take_prefix setup place first count
  have two := calls_take_prefix setup place second other
  rw [← same] at two
  have calls_eq : calls setup place (first.take count) = calls setup place (second.take other) :=
    (List.prefix_of_prefix_length_le one two (Nat.le_of_eq equally)).eq_of_length equally
  rw [view_run, view_run, calls_eq]

/-- The gates and the pool of an executor do not interfere with each other. -/
theorem isolated (setup : Setup) (place : Option Category) : Isolated setup place := by
  have quiet {actions : List Action} {action : Action}
      (quiet : (World.run setup actions).callsAt setup place action = []) :
      ((World.run setup actions).step action).executor.spot place =
        (World.run setup actions).executor.spot place := by
    rw [(coherent_run setup actions).spot_step, quiet]
    rfl
  constructor
  case alone => exact view_run setup place
  case states => exact fun first second same => view_eq_of_calls setup place same
  case quiet =>
    refine fun actions action idle => ⟨quiet idle, fun ticket run known here => ?_⟩
    subst here
    have heeds := (coherent_run setup actions).run?_step_of_quiet known idle
    rwa [runner_run] at heeds
  case elsewhere =>
    refine fun actions action away => ⟨quiet away.quiet, fun ticket run known here => ?_⟩
    have heeds := (coherent_run setup actions).run?_step_of_quiet known (here ▸ away.quiet)
    rwa [away.heed known here] at heeds

/-- A run, and a hold that waits for its permit, with nothing else going on. -/
def quietly : List Action :=
  [.begin .qpdf ⟨["qpdf"], none⟩, .hold .qpdf, .abandon 0]

/-- The same with runs of another category, leases and time in between. -/
def busily : List Action :=
  [.begin .ghostscript ⟨["gs"], none⟩, .lease, .begin .qpdf ⟨["qpdf"], none⟩, .elapse 7,
    .abandon 0, .hold .qpdf, .dropLease 1, .abandon 2]

/-- One permit for each gate that is looked at. -/
def narrow : Setup where
  overrides := [(.qpdf, ⟨1, 10, by decide⟩), (.ghostscript, ⟨1, 10, by decide⟩)]

example : calls narrow (some .qpdf) quietly = [.arrives 0, .arrives 1, .leaves 0] := by
  decide +kernel

theorem isolated_qpdf : calls narrow (some .qpdf) quietly = calls narrow (some .qpdf) busily ∧
    (World.run narrow quietly).view (some .qpdf) = (World.run narrow busily).view (some .qpdf) := by
  have same : calls narrow (some .qpdf) quietly = calls narrow (some .qpdf) busily := by
    decide +kernel
  exact ⟨same, (isolated narrow (some .qpdf)).states quietly busily same 3 8
    (congrArg List.length same)⟩

end World

end Turnstile
