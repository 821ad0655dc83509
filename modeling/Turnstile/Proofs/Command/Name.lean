import Mathlib.Data.List.TakeWhile
import Turnstile.Command.Name

/-!
# What the name of an executable is

The name is described without saying how it is found: the text after the last
separator, less one ending that spells the suffix in any letter case, if
something stands before that ending.
-/

namespace Turnstile.Command

/-! ## The text after the last separator -/

theorem isSeparator_eq_true_iff {c : Char} : isSeparator c = true ↔ c = '/' ∨ c = '\\' := by
  simp [isSeparator]

theorem isSeparator_eq_false_iff {c : Char} : isSeparator c = false ↔ c ≠ '/' ∧ c ≠ '\\' := by
  simp [isSeparator]

/-- The second text is what stands after the last separator of the first. -/
inductive BaseName : List Char → List Char → Prop where
  | bare {file : List Char} (plain : ∀ c ∈ file, c ≠ '/' ∧ c ≠ '\\') : BaseName file file
  | within {directory file : List Char} {separator : Char} (plain : ∀ c ∈ file, c ≠ '/' ∧ c ≠ '\\')
      (separates : separator = '/' ∨ separator = '\\') :
      BaseName (directory ++ separator :: file) file

theorem BaseName.of (token : List Char) : BaseName token (baseName token) := by
  have split := congrArg List.reverse
    (List.takeWhile_append_dropWhile (p := fun c => !isSeparator c) (l := token.reverse))
  rw [List.reverse_append, List.reverse_reverse] at split
  have plain : ∀ c ∈ baseName token, c ≠ '/' ∧ c ≠ '\\' := by
    intro c member
    have kept := List.mem_takeWhile_imp (List.mem_reverse.mp member)
    exact isSeparator_eq_false_iff.mp (by simpa using kept)
  cases rest : token.reverse.dropWhile fun c => !isSeparator c with
  | nil =>
      rw [rest] at split
      have whole : baseName token = token := split
      rw [whole] at plain ⊢
      exact .bare plain
  | cons separator directory =>
      have stops := List.head_dropWhile_not (fun c => !isSeparator c) (by rw [rest]; simp)
      simp only [rest, List.head_cons, Bool.not_eq_false'] at stops
      have whole : directory.reverse ++ separator :: baseName token = token := by
        rw [rest, List.reverse_cons, List.append_assoc] at split
        exact split
      have base : BaseName (directory.reverse ++ separator :: baseName token) (baseName token) :=
        .within plain (isSeparator_eq_true_iff.mp stops)
      rwa [whole] at base

/-- There is one text after the last separator. -/
theorem BaseName.eq_baseName {token file : List Char} (base : BaseName token file) :
    file = baseName token := by
  have kept {file : List Char} (plain : ∀ c ∈ file, c ≠ '/' ∧ c ≠ '\\') :
      ∀ c ∈ file.reverse, (!isSeparator c) = true := by
    intro c member
    simpa using isSeparator_eq_false_iff.mpr (plain c (List.mem_reverse.mp member))
  cases base with
  | bare plain =>
      rw [baseName, List.takeWhile_eq_self_iff.mpr (kept plain), List.reverse_reverse]
  | within plain separates =>
      have stops := isSeparator_eq_true_iff.mpr separates
      simp [baseName, List.takeWhile_append_of_pos (kept plain), stops]

/-! ## The suffix -/

theorem toNat_toLower (c : Char) :
    c.toLower.toNat = if 65 ≤ c.toNat ∧ c.toNat ≤ 90 then c.toNat + 32 else c.toNat := by
  have same : (c.val ≥ 'A'.val ∧ c.val ≤ 'Z'.val) ↔ 65 ≤ c.toNat ∧ c.toNat ≤ 90 := by
    simp only [ge_iff_le, UInt32.le_iff_toNat_le, ← Char.toNat_val]
    rfl
  unfold Char.toLower
  by_cases upper : 65 ≤ c.toNat ∧ c.toNat ≤ 90
  · rw [dif_pos (same.mpr upper), if_pos upper]
    change (c.val + ('a'.val - 'A'.val)).toNat = _
    rw [UInt32.toNat_add]
    have offset : ('a'.val - 'A'.val).toNat = 32 := rfl
    rw [offset, Char.toNat_val]
    omega
  · rw [dif_neg (mt same.mp upper), if_neg upper]

/-- A small letter comes from itself and from the capital that stands 32 places before it. -/
theorem toLower_eq_iff {c small capital : Char} (letter : 97 ≤ small.toNat ∧ small.toNat ≤ 122)
    (pair : capital.toNat + 32 = small.toNat) : c.toLower = small ↔ c = small ∨ c = capital := by
  rw [← Char.toNat_inj, ← Char.toNat_inj, ← Char.toNat_inj, toNat_toLower]
  split <;> omega

theorem toLower_eq_dot_iff {c : Char} : c.toLower = '.' ↔ c = '.' := by
  have dot : '.'.toNat = 46 := rfl
  rw [← Char.toNat_inj, ← Char.toNat_inj, toNat_toLower, dot]
  split <;> omega

/-- An ending that spells the suffix of a file name, in any letter case. -/
inductive Suffix : List Char → Prop where
  | spelled {e x f : Char} (first : e = 'e' ∨ e = 'E') (second : x = 'x' ∨ x = 'X')
      (third : f = 'e' ∨ f = 'E') : Suffix ['.', e, x, f]

theorem map_toLower_eq_suffix_iff {ending : List Char} :
    ending.map Char.toLower = suffix ↔ Suffix ending := by
  have e_iff {c : Char} : c.toLower = 'e' ↔ c = 'e' ∨ c = 'E' := toLower_eq_iff (by decide) rfl
  have x_iff {c : Char} : c.toLower = 'x' ↔ c = 'x' ∨ c = 'X' := toLower_eq_iff (by decide) rfl
  constructor
  · intro spelled
    simp only [suffix, List.map_eq_cons_iff, List.map_eq_nil_iff] at spelled
    obtain ⟨dot, _, rfl, isDot, e, _, rfl, first, x, _, rfl, second, f, _, rfl, third, rfl⟩ :=
      spelled
    rw [toLower_eq_dot_iff] at isDot
    subst isDot
    exact .spelled (e_iff.mp first) (x_iff.mp second) (e_iff.mp third)
  · rintro ⟨first, second, third⟩
    simp [suffix, e_iff.mpr first, x_iff.mpr second, e_iff.mpr third]

theorem Suffix.length_eq {ending : List Char} (ends : Suffix ending) :
    ending.length = suffix.length := by
  cases ends
  rfl

/-- The second text is the first without one ending that spells the suffix, if something remains. -/
inductive Stem : List Char → List Char → Prop where
  | cut {stem ending : List Char} (remains : stem ≠ []) (ends : Suffix ending) :
      Stem (stem ++ ending) stem
  | whole {file : List Char}
      (unsuffixed : ∀ stem ending, file = stem ++ ending → Suffix ending → stem = []) :
      Stem file file

theorem take_append_ending {stem ending : List Char} (ends : Suffix ending) :
    (stem ++ ending).take ((stem ++ ending).length - suffix.length) = stem ∧
      (stem ++ ending).drop ((stem ++ ending).length - suffix.length) = ending := by
  rw [List.length_append, ends.length_eq, Nat.add_sub_cancel]
  exact ⟨List.take_left, List.drop_left⟩

theorem Stem.of (file : List Char) : Stem file (dropSuffix file) := by
  simp only [dropSuffix]
  split
  · rename_i cut
    have stem := Stem.cut cut.1 (map_toLower_eq_suffix_iff.mp cut.2)
    rwa [List.take_append_drop] at stem
  · rename_i uncut
    refine .whole ?_
    intro stem ending split ends
    subst split
    obtain ⟨taken, dropped⟩ := take_append_ending ends
    rw [taken, dropped] at uncut
    by_contra remains
    exact uncut ⟨remains, map_toLower_eq_suffix_iff.mpr ends⟩

theorem Stem.eq_dropSuffix {file stem : List Char} (is : Stem file stem) :
    stem = dropSuffix file := by
  simp only [dropSuffix]
  cases is with
  | cut remains ends =>
      obtain ⟨taken, dropped⟩ := take_append_ending ends
      rw [taken, dropped, if_pos ⟨remains, map_toLower_eq_suffix_iff.mpr ends⟩]
  | whole unsuffixed =>
      split
      · rename_i cut
        have ends := map_toLower_eq_suffix_iff.mp cut.2
        exact absurd (unsuffixed _ _ (List.take_append_drop _ _).symm ends) cut.1
      · rfl

/-! ## The name -/

/-- The second text is the name of the executable that the first names. -/
def Names (token name : String) : Prop :=
  ∃ file, BaseName token.toList file ∧ Stem file name.toList

/-- A token names one executable. -/
theorem names_iff {token name : String} : Names token name ↔ name = executableName token := by
  constructor
  · rintro ⟨file, base, stem⟩
    rw [executableName, ← base.eq_baseName, ← stem.eq_dropSuffix, String.ofList_toList]
  · rintro rfl
    refine ⟨_, .of _, ?_⟩
    rw [executableName, String.toList_ofList]
    exact .of _

end Turnstile.Command
