/-!
# Claims

What became of each caller, by the caller's name and in the order of arrival.
-/

namespace Turnstile

/-- The state of every caller so far, in order of arrival. -/
abbrev Claims (ι α : Type) := List (ι × α)

namespace Claims

variable {ι α : Type} [DecidableEq ι]

/-- The state of a caller. -/
def get? (claims : Claims ι α) (who : ι) : Option α :=
  List.lookup who claims

/-- The claims with a new caller at the end. -/
def enter (claims : Claims ι α) (who : ι) (state : α) : Claims ι α :=
  claims ++ [(who, state)]

/-- The claims with the state of a caller replaced. -/
def set (claims : Claims ι α) (who : ι) (state : α) : Claims ι α :=
  claims.map fun claim => if claim.1 = who then (who, state) else claim

/-- The claims with every caller's state replaced. -/
def mapStates (claims : Claims ι α) (change : α → α) : Claims ι α :=
  claims.map fun claim => (claim.1, change claim.2)

omit [DecidableEq ι] in
@[simp] theorem map_fst_mapStates (claims : Claims ι α) (change : α → α) :
    (claims.mapStates change).map Prod.fst = claims.map Prod.fst := by
  simp [mapStates]

@[simp] theorem map_fst_set (claims : Claims ι α) (who : ι) (state : α) :
    (claims.set who state).map Prod.fst = claims.map Prod.fst := by
  simp only [set, List.map_map]
  apply List.map_congr_left
  intro claim _
  simp only [Function.comp_apply]
  split
  · rename_i same
    exact same.symm
  · rfl

end Claims

end Turnstile
