import Turnstile.Proofs.Standing

/-!
# What one action does to a gate

Callers come, give their permits back and leave the line, and the owner closes the
gate, one after another.  An action does nothing or is one of a few changes, from
which it follows what becomes of every caller.
-/

namespace Turnstile.Gate

/-- What callers do at a gate, and what its owner does. -/
inductive Action (ι : Type) where
  | acquire (who : ι)
  /-- Also what becomes of a permit whose caller gave up before it could take it. -/
  | release (who : ι)
  | cancel (who : ι)
  | close
  deriving DecidableEq, Repr

variable {ι : Type} [DecidableEq ι]

def step (gate : Gate ι) : Action ι → Gate ι
  | .acquire who => gate.acquire who
  | .release who => gate.release who
  | .cancel who => gate.cancel who
  | .close => gate.close

def run (gate : Gate ι) (actions : List (Action ι)) : Gate ι :=
  actions.foldl step gate

theorem run_append (gate : Gate ι) (actions more : List (Action ι)) :
    gate.run (actions ++ more) = (gate.run actions).run more :=
  List.foldl_append

theorem run_concat (gate : Gate ι) (actions : List (Action ι)) (action : Action ι) :
    gate.run (actions ++ [action]) = (gate.run actions).step action :=
  run_append gate actions [action]

/-- An action that does not apply: by a caller who is known, holds nothing or does not wait. -/
def Ignores (gate : Gate ι) : Action ι → Prop
  | .acquire who => gate.claims.get? who ≠ none
  | .release who => gate.claims.get? who ≠ some .held
  | .cancel who => gate.claims.get? who ≠ some .waiting
  | .close => False

/-- What an action does to a gate: nothing, or one of a few changes. -/
inductive Effect (gate : Gate ι) : Action ι → Gate ι → Prop where
  | nothing {action : Action ι} (ignored : gate.Ignores action) : Effect gate action gate
  | refused {who : ι} (fresh : gate.claims.get? who = none) (closed : gate.isClosed = true) :
      Effect gate (.acquire who) { gate with claims := gate.claims.enter who .interrupted }
  | granted {who : ι} (fresh : gate.claims.get? who = none) (opened : gate.isClosed = false)
      (free : 0 < gate.available) :
      Effect gate (.acquire who)
        { gate with
          semaphore := { gate.semaphore with free := gate.semaphore.free - 1 }
          claims := gate.claims.enter who .held }
  | queued {who : ι} (fresh : gate.claims.get? who = none) (opened : gate.isClosed = false)
      (busy : gate.available = 0) :
      Effect gate (.acquire who)
        { gate with
          semaphore := { gate.semaphore with queue := gate.semaphore.queue ++ [who] }
          claims := gate.claims.enter who .waiting }
  | freed {who : ι} (held : gate.claims.get? who = some .held) (empty : gate.line = []) :
      Effect gate (.release who)
        { gate with
          semaphore := { gate.semaphore with free := gate.semaphore.free + 1 }
          claims := gate.claims.set who .released }
  | handedOver {who first : ι} {rest : List ι} (held : gate.claims.get? who = some .held)
      (waits : gate.line = first :: rest) :
      Effect gate (.release who)
        { gate with
          semaphore := { gate.semaphore with queue := rest }
          claims := (gate.claims.set who .released).set first .held }
  | left {who : ι} (waiting : gate.claims.get? who = some .waiting) :
      Effect gate (.cancel who)
        { gate with
          semaphore := gate.semaphore.withdraw who
          claims := gate.claims.set who .cancelled }
  | shut : Effect gate .close gate.close

theorem step_of_ignored {gate : Gate ι} {action : Action ι} (ignored : gate.Ignores action) :
    gate.step action = gate := by
  cases action with
  | acquire who =>
      obtain ⟨claim, known⟩ := Option.ne_none_iff_exists'.mp ignored
      exact acquire_of_known known
  | release who => exact release_of_not_held ignored
  | cancel who => exact cancel_of_not_waiting ignored
  | close => exact absurd ignored id

namespace Consistent

variable {gate : Gate ι}

theorem effect (consistent : gate.Consistent) (action : Action ι) :
    gate.Effect action (gate.step action) := by
  by_cases ignored : gate.Ignores action
  · rw [step_of_ignored ignored]
    exact .nothing ignored
  · cases action with
    | acquire who =>
        have fresh := not_ne_iff.mp ignored
        change gate.Effect _ (gate.acquire who)
        by_cases closed : gate.isClosed = true
        · rw [acquire_of_closed fresh closed]
          exact .refused fresh closed
        · rw [Bool.not_eq_true] at closed
          rcases Nat.eq_zero_or_pos gate.available with busy | free
          · rw [acquire_of_busy fresh closed busy]
            exact .queued fresh closed busy
          · rw [acquire_of_free fresh closed free]
            exact .granted fresh closed free
    | release who =>
        have held := not_ne_iff.mp ignored
        change gate.Effect _ (gate.release who)
        cases waits : gate.line with
        | nil =>
            rw [consistent.release_of_nil held waits]
            exact .freed held waits
        | cons first rest =>
            rw [consistent.release_of_cons held waits]
            exact .handedOver held waits
    | cancel who =>
        have waiting := not_ne_iff.mp ignored
        change gate.Effect _ (gate.cancel who)
        rw [cancel_of_waiting waiting]
        exact .left waiting
    | close => exact .shut

theorem step (consistent : gate.Consistent) (action : Action ι) :
    (gate.step action).Consistent := by
  cases action with
  | acquire who => exact consistent.acquire who
  | release who => exact consistent.release who
  | cancel who => exact consistent.cancel who
  | close => exact consistent.close

theorem run (consistent : gate.Consistent) (actions : List (Action ι)) :
    (gate.run actions).Consistent := by
  induction actions generalizing gate with
  | nil => exact consistent
  | cons action actions ih => exact ih (consistent.step action)

end Consistent

/-! ## One claim -/

/-- What an action makes of the claim of one caller. -/
inductive Moves (gate : Gate ι) (who : ι) :
    Action ι → Option GateClaim → Option GateClaim → Prop where
  | stays {action : Action ι} {claim : Option GateClaim} : Moves gate who action claim claim
  | refused (closed : gate.isClosed = true) :
      Moves gate who (.acquire who) none (some .interrupted)
  | granted (opened : gate.isClosed = false) : Moves gate who (.acquire who) none (some .held)
  | queued (opened : gate.isClosed = false) : Moves gate who (.acquire who) none (some .waiting)
  | served {holder : ι} (held : gate.claims.get? holder = some .held)
      (first : gate.line.head? = some who) :
      Moves gate who (.release holder) (some .waiting) (some .held)
  | returned : Moves gate who (.release who) (some .held) (some .released)
  | left : Moves gate who (.cancel who) (some .waiting) (some .cancelled)
  | sentAway : Moves gate who .close (some .waiting) (some .interrupted)

theorem get?_close (gate : Gate ι) (who : ι) :
    gate.close.claims.get? who =
      if gate.claims.get? who = some .waiting then some .interrupted
      else gate.claims.get? who := by
  simp only [close, Claims.get?_mapStates]
  cases gate.claims.get? who with
  | none => rfl
  | some claim => cases claim <;> simp

theorem moves_enter {gate : Gate ι} {caller : ι} {action : Action ι} {claim : GateClaim}
    (fresh : gate.claims.get? caller = none)
    (own : gate.Moves caller action none (some claim)) (who : ι) :
    gate.Moves who action (gate.claims.get? who)
      ((gate.claims.enter caller claim).get? who) := by
  rw [Claims.get?_enter fresh]
  split
  · rename_i same
    subst same
    rw [fresh]
    exact own
  · exact .stays

/-- Every claim moves along its life, if at all. -/
theorem Consistent.moves {gate : Gate ι} (consistent : gate.Consistent) (action : Action ι)
    (who : ι) :
    gate.Moves who action (gate.claims.get? who) ((gate.step action).claims.get? who) := by
  have effect := consistent.effect action
  generalize same : gate.step action = after at effect
  cases effect with
  | nothing ignored => exact .stays
  | refused fresh closed => exact moves_enter fresh (.refused closed) who
  | granted fresh opened free => exact moves_enter fresh (.granted opened) who
  | queued fresh opened busy => exact moves_enter fresh (.queued opened) who
  | @freed holder held empty =>
      rw [Claims.get?_set]
      split
      · rename_i own
        subst own
        rw [held]
        exact .returned
      · exact .stays
  | @handedOver holder first rest held waits =>
      rw [← same]
      change gate.Moves who _ _ ((gate.release holder).claims.get? who)
      rw [get?_release consistent held]
      split
      · rename_i own
        subst own
        rw [held]
        exact .returned
      · split
        · rename_i head
          rw [consistent.mem_line.mp (List.mem_of_mem_head? head)]
          exact .served held head
        · exact .stays
  | left waiting =>
      rw [Claims.get?_set]
      split
      · rename_i own
        subst own
        rw [waiting]
        exact .left
      · exact .stays
  | shut =>
      rw [get?_close]
      split
      · rename_i waiting
        rw [waiting]
        exact .sentAway
      · exact .stays

/-! ## What runs keep -/

namespace Consistent

variable {gate : Gate ι}

/-- What no action takes from the claim of a caller, a run does not take either. -/
theorem run_keeps (consistent : gate.Consistent) {who : ι} (holds : Option GateClaim → Prop)
    (keeps : ∀ (gate : Gate ι) (action : Action ι) (claim after : Option GateClaim),
      holds claim → gate.Moves who action claim after → holds after)
    (start : holds (gate.claims.get? who)) (actions : List (Action ι)) :
    holds ((gate.run actions).claims.get? who) := by
  induction actions generalizing gate with
  | nil => exact start
  | cons action actions ih =>
      exact ih (consistent.step action) (keeps _ _ _ _ start (consistent.moves action who))

theorem run_cancelled (consistent : gate.Consistent) {who : ι}
    (cancelled : gate.claims.get? who = some .cancelled) (actions : List (Action ι)) :
    (gate.run actions).claims.get? who = some .cancelled := by
  refine consistent.run_keeps (· = some .cancelled) ?_ cancelled actions
  rintro _ _ _ _ rfl ⟨⟩
  rfl

theorem run_interrupted (consistent : gate.Consistent) {who : ι}
    (interrupted : gate.claims.get? who = some .interrupted) (actions : List (Action ι)) :
    (gate.run actions).claims.get? who = some .interrupted := by
  refine consistent.run_keeps (· = some .interrupted) ?_ interrupted actions
  rintro _ _ _ _ rfl ⟨⟩
  rfl

/-- A permit stays with its caller until the caller gives it back. -/
theorem run_held (consistent : gate.Consistent) {who : ι}
    (held : gate.claims.get? who = some .held) {actions : List (Action ι)}
    (keeps : .release who ∉ actions) :
    (gate.run actions).claims.get? who = some .held := by
  induction actions generalizing gate with
  | nil => exact held
  | cons action actions ih =>
      obtain ⟨other, keeps⟩ := not_or.mp (mt List.mem_cons.mpr keeps)
      refine ih (consistent.step action) ?_ keeps
      have moves := consistent.moves action who
      rw [held] at moves
      generalize (gate.step action).claims.get? who = after at moves
      cases moves with
      | stays => rfl
      | returned => exact absurd rfl other

theorem isClosed_step (consistent : gate.Consistent) (action : Action ι) :
    (gate.step action).isClosed = true ↔ gate.isClosed = true ∨ action = .close := by
  have effect := consistent.effect action
  generalize gate.step action = after at effect
  cases effect with
  | nothing ignored =>
      have other : action ≠ .close := by
        rintro rfl
        exact ignored
      simp [other]
  | shut => simp [Gate.close, Semaphore.close, isClosed]
  | left waiting => simp [Semaphore.withdraw, isClosed]
  | _ => simp [isClosed]

theorem isClosed_run (consistent : gate.Consistent) (actions : List (Action ι)) :
    (gate.run actions).isClosed = true ↔ gate.isClosed = true ∨ .close ∈ actions := by
  induction actions generalizing gate with
  | nil => simp [Gate.run]
  | cons action actions ih =>
      change ((gate.step action).run actions).isClosed = true ↔ _
      rw [ih (consistent.step action), consistent.isClosed_step, List.mem_cons, or_assoc,
        eq_comm (a := action)]

/-- What a gate was set up with stays. -/
theorem terms_step (consistent : gate.Consistent) (action : Action ι) :
    (gate.step action).category = gate.category ∧ (gate.step action).limits = gate.limits := by
  have effect := consistent.effect action
  generalize gate.step action = after at effect
  cases effect <;> exact ⟨rfl, rfl⟩

theorem terms_run (consistent : gate.Consistent) (actions : List (Action ι)) :
    (gate.run actions).category = gate.category ∧ (gate.run actions).limits = gate.limits := by
  induction actions generalizing gate with
  | nil => exact ⟨rfl, rfl⟩
  | cons action actions ih =>
      obtain ⟨category, limits⟩ := consistent.terms_step action
      obtain ⟨same_category, same_limits⟩ := ih (consistent.step action)
      exact ⟨same_category.trans category, same_limits.trans limits⟩

end Consistent

end Turnstile.Gate
