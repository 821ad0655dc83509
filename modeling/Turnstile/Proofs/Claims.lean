import Mathlib.Data.List.Basic
import Mathlib.Data.List.Nodup
import Turnstile.Claims

/-!
# Views of claims

Claims are read in two ways: by the name of one caller, and as the callers whose
state has a property, in order of arrival.  Each operation on claims is described
once for both views.
-/

namespace Turnstile.Claims

variable {ι α : Type}

/-- The callers in order of arrival. -/
def names (claims : Claims ι α) : List ι :=
  claims.map Prod.fst

/-- The callers whose state has a property, in order of arrival. -/
def having (holds : α → Bool) (claims : Claims ι α) : List ι :=
  (claims.filter fun claim => holds claim.2).map Prod.fst

theorem having_sublist (holds : α → Bool) (claims : Claims ι α) :
    (claims.having holds).Sublist claims.names :=
  List.filter_sublist.map _

theorem having_eq_nil {holds : α → Bool} (lacks : ∀ state, holds state = false)
    (claims : Claims ι α) : claims.having holds = [] := by
  simp [having, lacks]

@[simp] theorem names_enter (claims : Claims ι α) (who : ι) (state : α) :
    (claims.enter who state).names = claims.names ++ [who] := by
  simp [names, enter]

@[simp] theorem names_mapStates (claims : Claims ι α) (change : α → α) :
    (claims.mapStates change).names = claims.names :=
  map_fst_mapStates claims change

@[simp] theorem having_enter (holds : α → Bool) (claims : Claims ι α) (who : ι) (state : α) :
    (claims.enter who state).having holds =
      claims.having holds ++ if holds state then [who] else [] := by
  cases held : holds state <;> simp [having, enter, held]

@[simp] theorem having_mapStates (holds : α → Bool) (claims : Claims ι α) (change : α → α) :
    (claims.mapStates change).having holds = claims.having fun state => holds (change state) := by
  simp only [having, mapStates, List.filter_map, List.map_map]
  rfl

variable [DecidableEq ι]

@[simp] theorem names_set (claims : Claims ι α) (who : ι) (state : α) :
    (claims.set who state).names = claims.names :=
  map_fst_set claims who state

/-! ## One caller -/

@[simp] theorem get?_nil (who : ι) : get? ([] : Claims ι α) who = none :=
  rfl

theorem get?_cons (claim : ι × α) (rest : Claims ι α) (who : ι) :
    get? (claim :: rest) who = if who = claim.1 then some claim.2 else get? rest who := by
  obtain ⟨name, state⟩ := claim
  by_cases same : who = name
  · simp [get?, same]
  · have different : (who == name) = false := by simpa using same
    simp [get?, List.lookup_cons, same, different]

theorem get?_eq_none_iff {claims : Claims ι α} {who : ι} :
    claims.get? who = none ↔ who ∉ claims.names := by
  induction claims with
  | nil => simp [names]
  | cons claim rest ih =>
      rw [get?_cons]
      by_cases same : who = claim.1
      · simp [same, names]
      · simpa [same, names] using ih

theorem mem_of_get? {claims : Claims ι α} {who : ι} {state : α}
    (found : claims.get? who = some state) : (who, state) ∈ claims := by
  induction claims with
  | nil => cases found
  | cons claim rest ih =>
      rw [get?_cons] at found
      split at found
      · rename_i same
        cases found
        exact same ▸ List.mem_cons_self
      · exact List.mem_cons_of_mem _ (ih found)

theorem mem_names_of_get? {claims : Claims ι α} {who : ι} {state : α}
    (found : claims.get? who = some state) : who ∈ claims.names :=
  List.mem_map_of_mem (mem_of_get? found)

theorem get?_of_mem {claims : Claims ι α} (distinct : claims.names.Nodup) {who : ι} {state : α}
    (member : (who, state) ∈ claims) : claims.get? who = some state := by
  induction claims with
  | nil => exact absurd member List.not_mem_nil
  | cons claim rest ih =>
      obtain ⟨fresh, distinct⟩ := List.nodup_cons.mp distinct
      rw [get?_cons]
      rcases List.mem_cons.mp member with rfl | member
      · simp
      · have known : who ∈ rest.map Prod.fst := List.mem_map.mpr ⟨_, member, rfl⟩
        have other : who ≠ claim.1 := fun same => fresh (same ▸ known)
        rw [if_neg other]
        exact ih distinct member

theorem get?_enter {claims : Claims ι α} {who : ι} (fresh : claims.get? who = none) (state : α)
    (other : ι) :
    (claims.enter who state).get? other =
      if other = who then some state else claims.get? other := by
  induction claims with
  | nil => simp [enter, get?_cons]
  | cons claim rest ih =>
      rw [get?_cons] at fresh
      split at fresh
      · cases fresh
      · rename_i different
        have after := ih fresh
        simp only [enter, List.cons_append, get?_cons] at after ⊢
        grind

theorem get?_set (claims : Claims ι α) (who other : ι) (state : α) :
    (claims.set who state).get? other =
      if other = who then (claims.get? who).map fun _ => state else claims.get? other := by
  induction claims with
  | nil => simp [set]
  | cons claim rest ih =>
      simp only [set, List.map_cons] at ih ⊢
      split <;> simp only [get?_cons, ih] <;> grind

theorem get?_set_self {claims : Claims ι α} {who : ι} {old : α}
    (found : claims.get? who = some old) (state : α) :
    (claims.set who state).get? who = some state := by
  simp [get?_set, found]

theorem get?_set_of_ne {who other : ι} (different : other ≠ who) (claims : Claims ι α) (state : α) :
    (claims.set who state).get? other = claims.get? other := by
  simp [get?_set, different]

theorem get?_mapStates (claims : Claims ι α) (change : α → α) (who : ι) :
    (claims.mapStates change).get? who = (claims.get? who).map change := by
  induction claims with
  | nil => rfl
  | cons claim rest ih =>
      simp only [mapStates, List.map_cons, get?_cons] at ih ⊢
      split
      · rfl
      · exact ih

theorem get?_map_entries (claims : Claims ι α) (change : ι → α → α) (who : ι) :
    get? (claims.map fun claim => (claim.1, change claim.1 claim.2)) who =
      (claims.get? who).map (change who) := by
  induction claims with
  | nil => rfl
  | cons claim rest ih =>
      simp only [List.map_cons, get?_cons, ih]
      split
      · rename_i same
        rw [same]
        rfl
      · rfl

/-! ## Callers with a property -/

theorem nodup_names_enter {claims : Claims ι α} {who : ι} (distinct : claims.names.Nodup)
    (fresh : claims.get? who = none) (state : α) : (claims.enter who state).names.Nodup := by
  rw [names_enter]
  refine distinct.append (List.nodup_singleton who) ?_
  exact List.disjoint_singleton.mpr (get?_eq_none_iff.mp fresh)

theorem mem_having {holds : α → Bool} {claims : Claims ι α} (distinct : claims.names.Nodup)
    {who : ι} :
    who ∈ claims.having holds ↔ ∃ state, claims.get? who = some state ∧ holds state := by
  simp only [having, List.mem_map, List.mem_filter]
  constructor
  · rintro ⟨⟨name, state⟩, ⟨member, held⟩, rfl⟩
    exact ⟨state, get?_of_mem distinct member, held⟩
  · rintro ⟨state, found, held⟩
    exact ⟨(who, state), ⟨mem_of_get? found, held⟩, rfl⟩

/-- The callers with a property, picked out of all callers. -/
theorem having_eq_filter (holds : α → Bool) {claims : Claims ι α} (distinct : claims.names.Nodup) :
    claims.having holds = claims.names.filter fun who => (claims.get? who).any holds := by
  rw [having, names, List.filter_map]
  congr 1
  refine List.filter_congr fun claim member => ?_
  rw [Function.comp_apply, get?_of_mem distinct member, Option.any_some]

theorem set_of_notMem {claims : Claims ι α} {who : ι} (absent : who ∉ claims.names) (state : α) :
    claims.set who state = claims := by
  induction claims with
  | nil => rfl
  | cons claim rest ih =>
      simp only [names, List.map_cons, List.mem_cons, not_or] at absent
      have same := ih absent.2
      simp only [set, List.map_cons] at same ⊢
      rw [same, if_neg (Ne.symm absent.1)]

/-- A caller whose new state lacks the property leaves the list of those who have it. -/
theorem having_set_of_not {holds : α → Bool} {claims : Claims ι α} (distinct : claims.names.Nodup)
    (who : ι) {state : α} (lacks : holds state = false) :
    (claims.set who state).having holds = (claims.having holds).erase who := by
  induction claims with
  | nil => rfl
  | cons claim rest ih =>
      obtain ⟨fresh, distinct⟩ := List.nodup_cons.mp distinct
      have tail := ih distinct
      by_cases here : claim.1 = who
      · subst here
        have kept : set rest claim.1 state = rest := set_of_notMem fresh state
        have missing : claim.1 ∉ having holds rest :=
          fun member => fresh ((having_sublist holds rest).subset member)
        simp only [set] at kept
        cases held : holds claim.2
        · simpa [having, set, kept, lacks, held] using (List.erase_of_not_mem missing).symm
        · simp [having, set, kept, lacks, held]
      · have different : (claim.1 == who) = false := by simpa using here
        simp only [having, set] at tail
        cases held : holds claim.2 <;>
          simp [having, set, here, held, tail, different]

/-- A caller whose new state has the property as the old one had keeps its place. -/
theorem having_set_of_same {holds : α → Bool} {claims : Claims ι α} (distinct : claims.names.Nodup)
    {who : ι} {old state : α} (found : claims.get? who = some old)
    (same : holds state = holds old) :
    (claims.set who state).having holds = claims.having holds := by
  induction claims with
  | nil => cases found
  | cons claim rest ih =>
      obtain ⟨fresh, distinct⟩ := List.nodup_cons.mp distinct
      rw [get?_cons] at found
      split at found
      · rename_i here
        cases found
        have kept : set rest claim.1 state = rest := set_of_notMem fresh state
        simp only [set] at kept
        cases held : holds claim.2 <;> simp [having, set, kept, here, same, held]
      · rename_i different
        have tail := ih distinct found
        simp only [having, set] at tail
        cases held : holds claim.2 <;> simp [having, set, Ne.symm different, held, tail]

/-- A caller that gains the property adds one to those who have it. -/
theorem length_having_set_of_gain (holds : α → Bool) {claims : Claims ι α}
    (distinct : claims.names.Nodup) {who : ι} {old : α} (found : claims.get? who = some old)
    (lacked : holds old = false) (state : α) (has : holds state = true) :
    ((claims.set who state).having holds).length = (claims.having holds).length + 1 := by
  induction claims with
  | nil => cases found
  | cons claim rest ih =>
      obtain ⟨fresh, distinct⟩ := List.nodup_cons.mp distinct
      rw [get?_cons] at found
      split at found
      · rename_i here
        cases found
        have kept : set rest claim.1 state = rest := set_of_notMem fresh state
        simp only [set] at kept
        simp [having, set, kept, here, lacked, has]
      · rename_i different
        have tail := ih distinct found
        simp only [having, set, List.length_map] at tail
        cases held : holds claim.2 <;> simp [having, set, Ne.symm different, held, tail]

end Turnstile.Claims
