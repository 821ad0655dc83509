import Mathlib.Data.List.Induction
import Turnstile.Proofs.Gate.Moves

/-!
# The order of admission

Over every run of a gate the callers are let in as they came.  Those who were let
in, in the order in which they were, and behind them those who wait are all
callers in order of arrival, less those who gave up waiting or were sent away.
-/

namespace Turnstile

/-- A claim of a caller who neither gave up waiting nor was sent away. -/
def GateClaim.keepsPlace : GateClaim → Bool
  | .cancelled => false
  | .interrupted => false
  | _ => true

namespace Gate

variable {ι : Type} [DecidableEq ι]

/-- The caller who comes with an action. -/
def Action.caller? : Action ι → Option ι
  | .acquire who => some who
  | _ => none

/-- The callers in the order in which they first asked for a permit. -/
def arrivals (actions : List (Action ι)) : List ι :=
  (actions.filterMap Action.caller?).eraseDups

/-- Whom an action lets in. -/
def admittedBy (gate : Gate ι) (action : Action ι) : List ι :=
  (gate.step action).holders.filter fun who => who ∉ gate.holders

/-- The callers that a run lets in, in the order in which it does. -/
def admissions (gate : Gate ι) : List (Action ι) → List ι
  | [] => []
  | action :: actions => gate.admittedBy action ++ (gate.step action).admissions actions

omit [DecidableEq ι] in
/-- The callers who neither gave up waiting nor were sent away, in order of arrival. -/
def places (gate : Gate ι) : List ι :=
  gate.claims.having GateClaim.keepsPlace

/-! ## Arrivals -/

omit [DecidableEq ι] in
theorem mem_filterMap_caller? {actions : List (Action ι)} {who : ι} :
    who ∈ actions.filterMap Action.caller? ↔ .acquire who ∈ actions := by
  rw [List.mem_filterMap]
  constructor
  · rintro ⟨action, member, same⟩
    cases action <;> cases same
    exact member
  · exact fun member => ⟨_, member, rfl⟩

theorem mem_arrivals {actions : List (Action ι)} {who : ι} :
    who ∈ arrivals actions ↔ .acquire who ∈ actions := by
  rw [arrivals, List.mem_eraseDups, mem_filterMap_caller?]

theorem arrivals_concat (actions : List (Action ι)) (action : Action ι) :
    arrivals (actions ++ [action]) =
      arrivals actions ++ action.caller?.toList.filter (· ∉ arrivals actions) := by
  rw [arrivals, List.filterMap_append, List.eraseDups_append]
  congr 1
  cases action with
  | acquire who =>
      by_cases known : .acquire who ∈ actions
      · have listed := mem_filterMap_caller?.mpr known
        simp [Action.caller?, List.removeAll, mem_arrivals, known, listed, -List.mem_filterMap]
      · have unlisted := mt mem_filterMap_caller?.mp known
        simp [Action.caller?, List.removeAll, mem_arrivals, known, unlisted, -List.mem_filterMap,
          List.eraseDups_cons]
  | _ => rfl

namespace Consistent

variable {gate : Gate ι}

theorem names_step (consistent : gate.Consistent) (action : Action ι) :
    (gate.step action).claims.names =
      gate.claims.names ++ action.caller?.toList.filter (· ∉ gate.claims.names) := by
  have effect := consistent.effect action
  generalize gate.step action = after at effect
  have entered {who : ι} (fresh : gate.claims.get? who = none) (claim : GateClaim) :
      (gate.claims.enter who claim).names =
        gate.claims.names ++ [who].filter (· ∉ gate.claims.names) := by
    have absent := Claims.get?_eq_none_iff.mp fresh
    simp [absent]
  cases effect with
  | nothing ignored =>
      cases action with
      | acquire who =>
          have known := mt Claims.get?_eq_none_iff.mpr ignored
          simp [Action.caller?, not_not.mp known]
      | _ => simp [Action.caller?]
  | refused fresh closed => exact entered fresh _
  | granted fresh opened free => exact entered fresh _
  | queued fresh opened busy => exact entered fresh _
  | freed held empty => simp [Action.caller?]
  | handedOver held waits => simp [Action.caller?]
  | left waiting => simp [Action.caller?]
  | shut => simp [Action.caller?, Gate.close]

/-- Callers are listed as they come, and stay where they are listed. -/
theorem names_run (consistent : gate.Consistent) (actions : List (Action ι)) :
    gate.claims.names <+: (gate.run actions).claims.names := by
  induction actions generalizing gate with
  | nil => exact List.prefix_rfl
  | cons action actions ih =>
      have one : gate.claims.names <+: (gate.step action).claims.names := by
        rw [consistent.names_step]
        exact List.prefix_append _ _
      exact one.trans (ih (consistent.step action))

/-! ## One admission -/

omit [DecidableEq ι] in
theorem nodup_holders (consistent : gate.Consistent) : gate.holders.Nodup :=
  consistent.distinct.sublist (Claims.having_sublist _ _)

omit [DecidableEq ι] in
theorem nodup_places (consistent : gate.Consistent) : gate.places.Nodup :=
  consistent.distinct.sublist (Claims.having_sublist _ _)

/-- Closing the gate costs those their place who wait. -/
theorem places_close (consistent : gate.Consistent) :
    gate.close.places = gate.places.filter (· ∉ gate.line) := by
  have after := Claims.having_eq_filter GateClaim.keepsPlace consistent.close.distinct
  have before := Claims.having_eq_filter GateClaim.keepsPlace consistent.distinct
  have names : gate.close.claims.names = gate.claims.names := by simp [Gate.close]
  rw [places, places, after, before, names, List.filter_filter]
  refine List.filter_congr fun who _ => ?_
  rw [get?_close]
  by_cases waiting : gate.claims.get? who = some .waiting
  · simp [waiting, consistent.mem_line, GateClaim.keepsPlace]
  · simp [waiting, consistent.mem_line]

theorem line_eq_filter (consistent : gate.Consistent) :
    gate.line = gate.claims.names.filter fun who => gate.claims.get? who = some .waiting := by
  rw [line, Claims.having_eq_filter _ consistent.distinct]
  refine List.filter_congr fun who _ => ?_
  cases gate.claims.get? who <;> simp

theorem places_eq_filter (consistent : gate.Consistent) :
    gate.places = gate.claims.names.filter fun who =>
      gate.claims.get? who ≠ some .cancelled ∧ gate.claims.get? who ≠ some .interrupted := by
  rw [places, Claims.having_eq_filter _ consistent.distinct]
  refine List.filter_congr fun who member => ?_
  have known := mt Claims.get?_eq_none_iff.mp (not_not.mpr member)
  obtain ⟨claim, found⟩ := Option.ne_none_iff_exists'.mp known
  cases claim <;> simp [found, GateClaim.keepsPlace]

omit [DecidableEq ι] in
theorem line_eq_nil_of_closed (consistent : gate.Consistent) (closed : gate.isClosed = true) :
    gate.line = [] := by
  by_contra waits
  have opened := consistent.serves.open_of_line waits
  rw [show gate.semaphore.isClosed = true from closed] at opened
  cases opened

theorem mem_admittedBy (consistent : gate.Consistent) {action : Action ι} {who : ι} :
    who ∈ gate.admittedBy action ↔
      (gate.step action).claims.get? who = some .held ∧ gate.claims.get? who ≠ some .held := by
  rw [admittedBy, List.mem_filter, (consistent.step action).mem_holders, decide_eq_true_eq,
    consistent.mem_holders]

/-- Whoever is let in has just come, or was first in line when a permit was given back. -/
theorem comes_of_admittedBy (consistent : gate.Consistent) {action : Action ι} {who : ι}
    (member : who ∈ gate.admittedBy action) :
    action = .acquire who ∧ gate.isClosed = false ∨
      ∃ holder, action = .release holder ∧ gate.line.head? = some who := by
  obtain ⟨held, unheld⟩ := consistent.mem_admittedBy.mp member
  have moves := consistent.moves action who
  rw [held] at moves
  generalize gate.claims.get? who = claim at unheld moves
  cases moves with
  | stays => exact absurd rfl unheld
  | granted opened => exact .inl ⟨rfl, opened⟩
  | served returned first => exact .inr ⟨_, rfl, first⟩

theorem admittedBy_eq_singleton (consistent : gate.Consistent) {action : Action ι} {who : ι}
    (member : who ∈ gate.admittedBy action) : gate.admittedBy action = [who] := by
  have distinct : (gate.admittedBy action).Nodup :=
    (consistent.step action).nodup_holders.filter _
  refine List.perm_singleton.mp ((List.perm_ext_iff_of_nodup distinct (by simp)).mpr ?_)
  intro other
  rw [List.mem_singleton]
  constructor
  · intro another
    rcases consistent.comes_of_admittedBy member with ⟨one, _⟩ | ⟨_, one, first⟩ <;>
      rcases consistent.comes_of_admittedBy another with ⟨two, _⟩ | ⟨_, two, second⟩ <;>
      rw [one] at two <;> cases two
    · rfl
    · rw [first] at second
      cases second
      rfl
  · rintro rfl
    exact member

end Consistent

/-! ## The line -/

/-- What an action does to the line and to the callers who keep their place, and whom it lets in. -/
inductive Turns (line places : List ι) : List ι → List ι → List ι → Prop where
  | stays : Turns line places [] line places
  | joined (who : ι) : Turns line places [] (line ++ [who]) (places ++ [who])
  | passed (who : ι) (empty : line = []) : Turns line places [who] line (places ++ [who])
  | served {first : ι} {rest : List ι} (waits : line = first :: rest) :
      Turns line places [first] rest places
  | left {who : ι} (waits : who ∈ line) : Turns line places [] (line.erase who) (places.erase who)
  | cleared : Turns line places [] [] (places.filter (· ∉ line))

/-- Whoever is let in was ahead of the line, and nobody changes places. -/
theorem Turns.order {line places admitted later places_later : List ι}
    (turns : Turns line places admitted later places_later) (distinct : places.Nodup)
    {before : List ι} (order : before ++ line = places) :
    before ++ admitted ++ later = places_later := by
  subst order
  have unadmitted {who : ι} (waits : who ∈ line) : who ∉ before :=
    fun member => List.disjoint_of_nodup_append distinct member waits
  cases turns with
  | stays => simp
  | joined who => simp
  | passed who empty => simp [empty]
  | served waits => simp [waits]
  | left waits => rw [List.append_nil, List.erase_append_right _ (unadmitted waits)]
  | cleared =>
      have through : before.filter (· ∉ line) = before :=
        List.filter_eq_self.mpr fun who member => by simpa using fun waits => unadmitted waits member
      rw [List.filter_append, through]
      simp

namespace Consistent

variable {gate : Gate ι}

theorem turns (consistent : gate.Consistent) (action : Action ι) :
    Turns gate.line gate.places (gate.admittedBy action) (gate.step action).line
      (gate.step action).places := by
  have comes {who : ι} (member : who ∈ gate.admittedBy action) :=
    consistent.comes_of_admittedBy member
  have effect := consistent.effect action
  generalize same : gate.step action = after at effect
  cases effect with
  | nothing ignored =>
      have none : gate.admittedBy action = [] := by simp [admittedBy, same]
      rw [none]
      exact .stays
  | @refused who fresh closed =>
      have none : gate.admittedBy (.acquire who) = [] := by
        refine List.eq_nil_iff_forall_not_mem.mpr fun other member => ?_
        rcases comes member with ⟨_, opened⟩ | ⟨_, other, _⟩
        · simp [closed] at opened
        · cases other
      simpa [none, line, places, GateClaim.keepsPlace] using Turns.stays
  | @granted who fresh opened free =>
      have one : gate.admittedBy (.acquire who) = [who] := by
        refine consistent.admittedBy_eq_singleton (consistent.mem_admittedBy.mpr ?_)
        simp [same, Claims.get?_enter fresh, fresh]
      have passed : Turns gate.line gate.places _ _ _ :=
        .passed who (consistent.serves.line_eq_nil_of_free free)
      simpa [one, line, places, GateClaim.keepsPlace] using passed
  | @queued who fresh opened busy =>
      have none : gate.admittedBy (.acquire who) = [] := by
        refine List.eq_nil_iff_forall_not_mem.mpr fun other member => ?_
        rcases comes member with ⟨own, _⟩ | ⟨_, other, _⟩
        · cases own
          simpa [same, Claims.get?_enter fresh] using (consistent.mem_admittedBy.mp member).1
        · cases other
      have joined : Turns gate.line gate.places _ _ _ := .joined who
      simpa [none, line, places, GateClaim.keepsPlace] using joined
  | @freed who held empty =>
      have none : gate.admittedBy (.release who) = [] := by
        refine List.eq_nil_iff_forall_not_mem.mpr fun other member => ?_
        rcases comes member with ⟨other, _⟩ | ⟨_, _, first⟩
        · cases other
        · simp [empty] at first
      have kept : Claims.having GateClaim.keepsPlace (gate.claims.set who .released) = gate.places :=
        Claims.having_set_of_same consistent.distinct held rfl
      change Turns _ _ _ (Claims.having _ _) (Claims.having _ _)
      rw [none, consistent.line_set_released held, kept]
      exact .stays
  | @handedOver who first rest held waits =>
      obtain ⟨waiting, other⟩ := consistent.first_in_line held waits
      have one : gate.admittedBy (.release who) = [first] := by
        refine consistent.admittedBy_eq_singleton (consistent.mem_admittedBy.mpr ?_)
        simp [same, waiting, other, Claims.get?_set]
      have distinct : (gate.claims.set who .released).names.Nodup := by
        simpa using consistent.distinct
      have found := (Claims.get?_set_of_ne other gate.claims .released).trans waiting
      have kept : Claims.having GateClaim.keepsPlace
          ((gate.claims.set who .released).set first .held) = gate.places :=
        (Claims.having_set_of_same distinct found (by rfl)).trans
          (Claims.having_set_of_same consistent.distinct held (by rfl))
      change Turns _ _ _ (Claims.having _ _) (Claims.having _ _)
      rw [one, Claims.having_set_of_not distinct first (by simp),
        consistent.line_set_released held, kept, waits, List.erase_cons_head]
      exact .served rfl
  | @left who waiting =>
      have none : gate.admittedBy (.cancel who) = [] := by
        refine List.eq_nil_iff_forall_not_mem.mpr fun other member => ?_
        rcases comes member with ⟨other, _⟩ | ⟨_, other, _⟩ <;> cases other
      change Turns _ _ _ (Claims.having _ _) (Claims.having _ _)
      rw [none, Claims.having_set_of_not consistent.distinct who (by simp),
        Claims.having_set_of_not consistent.distinct who rfl]
      exact .left (consistent.mem_line.mpr waiting)
  | shut =>
      have none : gate.admittedBy .close = [] := by
        refine List.eq_nil_iff_forall_not_mem.mpr fun other member => ?_
        rcases comes member with ⟨other, _⟩ | ⟨_, other, _⟩ <;> cases other
      rw [none, line_close, consistent.places_close]
      exact .cleared

end Consistent

/-! ## A run -/

theorem admissions_concat (gate : Gate ι) (actions : List (Action ι)) (action : Action ι) :
    gate.admissions (actions ++ [action]) =
      gate.admissions actions ++ (gate.run actions).admittedBy action := by
  induction actions generalizing gate with
  | nil => simp [admissions, run]
  | cons first actions ih => simp [admissions, ih, run]

theorem names_run_of (category : Category) (limits : Limits) (actions : List (Action ι)) :
    ((of category limits).run actions).claims.names = arrivals actions := by
  induction actions using List.reverseRecOn with
  | nil => rfl
  | append_singleton actions action ih =>
      rw [run_concat, ((Consistent.of category limits).run actions).names_step, ih, arrivals_concat]

theorem admissions_append_line (category : Category) (limits : Limits)
    (actions : List (Action ι)) :
    (of category limits).admissions actions ++ ((of category limits).run actions).line =
      ((of category limits).run actions).places := by
  induction actions using List.reverseRecOn with
  | nil => rfl
  | append_singleton actions action ih =>
      rw [run_concat, admissions_concat]
      have consistent := (Consistent.of category limits : (of category limits : Gate ι).Consistent)
      exact ((consistent.run actions).turns action).order (consistent.run actions).nodup_places ih

/-- A claim that a caller did not have at the start was come to by one of the actions. -/
theorem Consistent.exists_moves {gate : Gate ι} (consistent : gate.Consistent) {who : ι}
    {actions : List (Action ι)} {claim : Option GateClaim}
    (known : (gate.run actions).claims.get? who = claim) (new : gate.claims.get? who ≠ claim) :
    ∃ (earlier : List (Action ι)) (action : Action ι) (later : List (Action ι)),
      actions = earlier ++ action :: later ∧ (gate.run earlier).claims.get? who ≠ claim ∧
        (gate.run earlier).Moves who action ((gate.run earlier).claims.get? who) claim := by
  induction actions generalizing gate with
  | nil => exact absurd known new
  | cons action actions ih =>
      by_cases here : (gate.step action).claims.get? who = claim
      · exact ⟨[], action, actions, rfl, new, here ▸ consistent.moves action who⟩
      · obtain ⟨earlier, last, later, rfl, before, moves⟩ := ih (consistent.step action) known here
        exact ⟨action :: earlier, last, later, rfl, before, moves⟩

section Callers

variable {category : Category} {limits : Limits} {actions : List (Action ι)} {who : ι}

theorem get?_run_of_eq_none_iff :
    ((of category limits).run actions).claims.get? who = none ↔ .acquire who ∉ actions := by
  rw [Claims.get?_eq_none_iff, names_run_of, mem_arrivals]

theorem isClosed_run_of :
    ((of category limits).run actions : Gate ι).isClosed = true ↔ .close ∈ actions := by
  rw [(Consistent.of category limits).isClosed_run]
  exact or_iff_right nofun

/-- Gave up waiting: the caller was in line when it left. -/
theorem get?_run_of_eq_cancelled_iff :
    ((of category limits).run actions).claims.get? who = some .cancelled ↔
      ∃ earlier later : List (Action ι), actions = earlier ++ .cancel who :: later ∧
        ((of category limits).run earlier).claims.get? who = some .waiting := by
  have start : (of category limits : Gate ι).Consistent := .of category limits
  constructor
  · intro cancelled
    obtain ⟨earlier, action, later, split, new, moves⟩ := start.exists_moves cancelled nofun
    generalize before : ((of category limits).run earlier).claims.get? who = claim at new moves
    cases moves with
    | stays => exact absurd rfl new
    | left => exact ⟨earlier, later, split, before⟩
  · rintro ⟨earlier, later, rfl, waiting⟩
    rw [run_append]
    refine ((start.run earlier).step (.cancel who)).run_cancelled ?_ later
    rw [step, cancel_of_waiting waiting]
    exact Claims.get?_set_self waiting _

/-- Sent away: the caller was in line when the gate was closed, or came after that. -/
theorem get?_run_of_eq_interrupted_iff :
    ((of category limits).run actions).claims.get? who = some .interrupted ↔
      ∃ earlier later : List (Action ι),
        actions = earlier ++ .close :: later ∧
            ((of category limits).run earlier).claims.get? who = some .waiting ∨
          actions = earlier ++ .acquire who :: later ∧ .acquire who ∉ earlier ∧
            .close ∈ earlier := by
  have start : (of category limits : Gate ι).Consistent := .of category limits
  constructor
  · intro interrupted
    obtain ⟨earlier, action, later, split, new, moves⟩ := start.exists_moves interrupted nofun
    generalize before : ((of category limits).run earlier).claims.get? who = claim at new moves
    cases moves with
    | stays => exact absurd rfl new
    | refused closed =>
        exact ⟨earlier, later, .inr ⟨split, get?_run_of_eq_none_iff.mp before,
          isClosed_run_of.mp closed⟩⟩
    | sentAway => exact ⟨earlier, later, .inl ⟨split, before⟩⟩
  · rintro ⟨earlier, later, ⟨rfl, waiting⟩ | ⟨rfl, absent, closed⟩⟩ <;> rw [run_append]
    · refine ((start.run earlier).step .close).run_interrupted ?_ later
      rw [step, get?_close, if_pos waiting]
    · refine ((start.run earlier).step (.acquire who)).run_interrupted ?_ later
      have fresh : ((of category limits).run earlier).claims.get? who = none :=
        get?_run_of_eq_none_iff.mpr absent
      rw [step, acquire_of_closed fresh (isClosed_run_of.mpr closed), Claims.get?_enter fresh,
        if_pos rfl]

end Callers

/-- What holds of a gate of a category with these limits after these actions. -/
structure FirstComeFirstServed (category : Category) (limits : Limits)
    (actions : List (Action ι)) (gate : Gate ι) : Prop where
  capacity : gate.capacity = min limits.maxConcurrency maxCapacity
  /-- The permits that are free and those that are held are all there are. -/
  balance : gate.available + gate.holders.length = gate.capacity
  /-- Who waits does so at an open gate all of whose permits are held. -/
  owed : ∀ {who : ι}, gate.claims.get? who = some .waiting →
    .close ∉ actions ∧ gate.available = 0 ∧ gate.holders.length = gate.capacity
  /-- In line are those who wait, as they came. -/
  line : gate.semaphore.queue =
    (arrivals actions).filter fun who => gate.claims.get? who = some .waiting
  /--
  Those let in, as it happened, and behind them those in line are all who came, as they
  came, but for those who gave up waiting or were sent away.
  -/
  order : (of category limits).admissions actions ++ gate.semaphore.queue =
    (arrivals actions).filter fun who =>
      gate.claims.get? who ≠ some .cancelled ∧ gate.claims.get? who ≠ some .interrupted
  /-- Who gave up waiting left the line. -/
  cancelled : ∀ {who : ι}, gate.claims.get? who = some .cancelled ↔
    ∃ earlier later : List (Action ι), actions = earlier ++ .cancel who :: later ∧
      ((of category limits).run earlier).claims.get? who = some .waiting
  /-- Who was sent away waited when the gate was closed, or came after that. -/
  interrupted : ∀ {who : ι}, gate.claims.get? who = some .interrupted ↔
    ∃ earlier later : List (Action ι),
      actions = earlier ++ .close :: later ∧
          ((of category limits).run earlier).claims.get? who = some .waiting ∨
        actions = earlier ++ .acquire who :: later ∧ .acquire who ∉ earlier ∧ .close ∈ earlier
  /-- Who is sent away is told the category. -/
  interruption : gate.interruption = .waitingForSlot category
  /-- Who comes to an open gate with a free permit gets it at once. -/
  granted : ∀ {who : ι}, .close ∉ actions → .acquire who ∉ actions → 0 < gate.available →
    (gate.step (.acquire who)).claims.get? who = some .held ∧
      (gate.step (.acquire who)).available + 1 = gate.available
  /-- Who comes to an open gate without one goes to the end of the line. -/
  queued : ∀ {who : ι}, .close ∉ actions → .acquire who ∉ actions → gate.available = 0 →
    (gate.step (.acquire who)).semaphore.queue = gate.semaphore.queue ++ [who]
  /-- A permit that is given back goes to the first in line, and nobody else is told anything. -/
  handedOver : ∀ {holder first : ι} {rest : List ι}, gate.claims.get? holder = some .held →
    gate.semaphore.queue = first :: rest →
      (gate.step (.release holder)).claims.get? first = some .held ∧
        (gate.step (.release holder)).semaphore.queue = rest ∧
        (gate.step (.release holder)).available = gate.available ∧
        ∀ other, other ≠ holder → other ≠ first →
          (gate.step (.release holder)).claims.get? other = gate.claims.get? other
  /-- A permit that is given back becomes free if nobody waits, at a closed gate always. -/
  freed : ∀ {holder : ι}, gate.claims.get? holder = some .held →
    gate.semaphore.queue = [] ∨ .close ∈ actions →
      (gate.step (.release holder)).available = gate.available + 1 ∧
        ∀ other, other ≠ holder →
          (gate.step (.release holder)).claims.get? other = gate.claims.get? other
  /-- Who leaves the line leaves everyone else in place and every permit where it is. -/
  withdrawn : ∀ {who : ι}, gate.claims.get? who = some .waiting →
    (gate.step (.cancel who)).semaphore.queue = gate.semaphore.queue.erase who ∧
      (gate.step (.cancel who)).available = gate.available ∧
      ∀ other, other ≠ who →
        (gate.step (.cancel who)).claims.get? other = gate.claims.get? other
  /-- A permit stays valid until it is given back, whatever happens to the gate. -/
  kept : ∀ {who : ι}, gate.claims.get? who = some .held → ∀ {more : List (Action ι)},
    .release who ∉ more → (gate.run more).claims.get? who = some .held
  /-- What does not apply changes nothing. -/
  ignored : ∀ {action : Action ι}, gate.Ignores action → gate.step action = gate

/-- Every gate serves its callers as they come. -/
theorem firstComeFirstServed_run (category : Category) (limits : Limits)
    (actions : List (Action ι)) :
    FirstComeFirstServed category limits actions ((of category limits).run actions) := by
  have start : (of category limits : Gate ι).Consistent := .of category limits
  have consistent := start.run actions
  have names : ((of category limits).run actions).claims.names = arrivals actions :=
    names_run_of category limits actions
  have serves := consistent.serves
  have terms := start.terms_run actions
  have opened (unclosed : .close ∉ actions) :
      ((of category limits).run actions).isClosed = false :=
    Bool.eq_false_iff.mpr (mt isClosed_run_of.mp unclosed)
  have fresh {who : ι} (absent : .acquire who ∉ actions) :
      ((of category limits).run actions).claims.get? who = none :=
    get?_run_of_eq_none_iff.mpr absent
  constructor
  case capacity => exact congrArg Limits.maxConcurrency terms.2
  case balance => exact consistent.balance
  case cancelled => exact get?_run_of_eq_cancelled_iff
  case interrupted => exact get?_run_of_eq_interrupted_iff
  case interruption => exact congrArg Failure.waitingForSlot terms.1
  case kept => exact fun held _ keeps => consistent.run_held held keeps
  case ignored => exact step_of_ignored
  case line => rw [serves.queue_eq, consistent.line_eq_filter, names]
  case order =>
    rw [serves.queue_eq, admissions_append_line, consistent.places_eq_filter, names]
  case owed =>
    intro who waiting
    have waits := List.ne_nil_of_mem (consistent.mem_line.mpr waiting)
    have busy := serves.busy waits
    have balance := serves.balance
    rw [busy, Nat.zero_add] at balance
    refine ⟨fun closed => waits ?_, busy, balance⟩
    exact consistent.line_eq_nil_of_closed (isClosed_run_of.mpr closed)
  case granted =>
    intro who unclosed absent free
    have unknown := fresh absent
    simp only [step, acquire_of_free unknown (opened unclosed) free, Claims.get?_enter unknown]
    exact ⟨if_pos trivial, Nat.sub_add_cancel free⟩
  case queued =>
    intro who unclosed absent busy
    simp only [step, acquire_of_busy (fresh absent) (opened unclosed) busy]
  case handedOver =>
    intro holder first rest held queue
    have waits := serves.queue_eq.symm.trans queue
    obtain ⟨waiting, apart⟩ := consistent.first_in_line held waits
    simp only [step, get?_release consistent held, waits, List.head?_cons]
    refine ⟨by simp [apart], ?_, ?_, ?_⟩
    · simp [consistent.release_of_cons held waits]
    · simp [consistent.release_of_cons held waits, available]
    · intro other different later
      rw [if_neg different, if_neg (fun same => later (Option.some.inj same).symm)]
  case freed =>
    intro holder held unwanted
    have empty : ((of category limits).run actions).line = [] := by
      rcases unwanted with queue | closed
      · exact serves.queue_eq.symm.trans queue
      · exact consistent.line_eq_nil_of_closed (isClosed_run_of.mpr closed)
    simp only [step, get?_release consistent held, empty]
    refine ⟨?_, ?_⟩
    · simp [consistent.release_of_nil held empty, available]
    · intro other different
      simp [different]
  case withdrawn =>
    intro who waiting
    simp only [step, cancel_of_waiting waiting]
    refine ⟨rfl, rfl, fun other different => Claims.get?_set_of_ne different _ _⟩

end Gate

end Turnstile
