import Mathlib.Data.List.Infix
import Turnstile.Command.Check
import Turnstile.Proofs.Command.Name

/-!
# Which command lines are accepted

The check of a command line accepts what the rules allow and nothing else.  The
rules are stated on the text, apart from the order in which the check applies
them; what the check looks up, and what it never looks at, follows.
-/

namespace Turnstile

theorem Text.occursIn_eq_true_iff {needle hay : List Char} :
    Text.occursIn needle hay = true ↔ needle <:+: hay := by
  induction hay with
  | nil => simp [Text.occursIn]
  | cons c rest ih =>
      simp [Text.occursIn, List.infix_cons_iff, ih]

theorem Text.isBlankText_eq_false_iff {text : String} :
    Text.isBlankText text = false ↔ ∃ c ∈ text.toList, Text.isBlank c = false := by
  simp [Text.isBlankText]

theorem Allowlist.contains_eq_true_iff {allowed : Allowlist} {name : String} :
    allowed.contains name = true ↔ name ∈ allowed.names := by
  simp [Allowlist.contains]

namespace Command

/-! ## Unsafe characters -/

/-- The token with this number holds a character that no token may hold. -/
def UnsafeAt (argv : List String) (index : Nat) : Prop :=
  ∃ token, argv[index]? = some token ∧ ∃ c ∈ token.toList, c = '\x00' ∨ c = '\r' ∨ c = '\n'

theorem unsafeAt_iff {argv : List String} {index : Nat} :
    UnsafeAt argv index ↔ ∃ token, argv[index]? = some token ∧ hasUnsafe token = true := by
  simp [UnsafeAt, hasUnsafe, isUnsafe, or_assoc]

theorem findIdx?_hasUnsafe_eq_none_iff {argv : List String} :
    argv.findIdx? hasUnsafe = none ↔ ∀ index, ¬ UnsafeAt argv index := by
  simp only [List.findIdx?_eq_none_iff, List.mem_iff_getElem?, unsafeAt_iff]
  constructor
  · rintro clean index ⟨token, found, holds⟩
    rw [clean token ⟨index, found⟩] at holds
    cases holds
  · rintro clean token ⟨index, found⟩
    exact Bool.eq_false_iff.mpr fun holds => clean index ⟨token, found, holds⟩

/-- The search finds the least number of a token that holds such a character. -/
theorem findIdx?_hasUnsafe_eq_some_iff {argv : List String} {index : Nat} :
    argv.findIdx? hasUnsafe = some index ↔
      UnsafeAt argv index ∧ ∀ earlier < index, ¬ UnsafeAt argv earlier := by
  rw [List.findIdx?_eq_some_iff_getElem]
  constructor
  · rintro ⟨bound, holds, before⟩
    refine ⟨unsafeAt_iff.mpr ⟨_, List.getElem?_eq_getElem bound, holds⟩, ?_⟩
    intro earlier less found
    obtain ⟨token, at_earlier, holds⟩ := unsafeAt_iff.mp found
    rw [List.getElem?_eq_getElem (Nat.lt_trans less bound)] at at_earlier
    cases at_earlier
    exact before earlier less holds
  · rintro ⟨found, before⟩
    obtain ⟨token, at_index, holds⟩ := unsafeAt_iff.mp found
    obtain ⟨bound, rfl⟩ := List.getElem?_eq_some_iff.mp at_index
    refine ⟨bound, holds, fun earlier less holds => before earlier less ?_⟩
    exact unsafeAt_iff.mpr ⟨_, List.getElem?_eq_getElem (Nat.lt_trans less bound), holds⟩

theorem findIdx?_hasUnsafe_congr {argv other : List String}
    (same : ∀ index, UnsafeAt argv index ↔ UnsafeAt other index) :
    argv.findIdx? hasUnsafe = other.findIdx? hasUnsafe := by
  apply Option.ext
  intro index
  simp only [findIdx?_hasUnsafe_eq_some_iff, same]

/-- The executable's own characters count as well as those of the tokens after it. -/
theorem clean_cons_iff {executable : String} {arguments : List String} :
    (∀ index, ¬ UnsafeAt (executable :: arguments) index) ↔
      ¬ UnsafeAt [executable] 0 ∧ ¬ ∃ index, UnsafeAt arguments index := by
  constructor
  · intro clean
    exact ⟨clean 0, fun ⟨index, found⟩ => clean (index + 1) found⟩
  · rintro ⟨own, rest⟩ index
    cases index with
    | zero => exact own
    | succ index => exact fun found => rest ⟨index, found⟩

/-! ## The rules -/

/-- A token with a separator. -/
def Located (token : String) : Prop :=
  '/' ∈ token.toList ∨ '\\' ∈ token.toList

theorem isPath_eq_true_iff {token : String} : isPath token = true ↔ Located token := by
  simp [isPath, isSeparator, Located, List.any_eq_true]
  grind

/-- An executable that is allowed by its own name, or found as a file with an allowed name. -/
inductive Allowed (allowed : Allowlist) (probe : String → PathKind) (executable : String) :
    Prop where
  | bare (plain : ¬ Located executable) (listed : executable ∈ allowed.names)
  | found {name : String} (located : Located executable) (file : probe executable = .file)
      (named : Names executable name) (some : name ≠ "") (listed : name ∈ allowed.names)

variable {allowed : Allowlist} {probe : String → PathKind} {executable : String}
  {arguments argv : List String}

theorem checkName_eq_ok_iff : checkName allowed executable = .ok () ↔
    ∃ name, Names executable name ∧ name ≠ "" ∧ name ∈ allowed.names := by
  simp only [names_iff, exists_eq_left, ← Allowlist.contains_eq_true_iff]
  simp only [checkName]
  split
  · rename_i empty
    simp [empty]
  · rename_i some
    cases listed : allowed.contains (executableName executable) <;> simp [some]

/-- The rules about the text of the executable alone. -/
structure Legible (executable : String) : Prop where
  visible : ∃ c ∈ executable.toList, Text.isBlank c = false
  straight : ¬ ['.', '.'] <:+: executable.toList

theorem legible_iff : Legible executable ↔
    Text.isBlankText executable = false ∧ hasTraversal executable = false := by
  rw [Text.isBlankText_eq_false_iff, hasTraversal, Bool.eq_false_iff, Ne, Text.occursIn_eq_true_iff]
  constructor
  · intro legible
    exact ⟨legible.visible, legible.straight⟩
  · rintro ⟨visible, straight⟩
    exact ⟨visible, straight⟩

theorem checkExecutable_of_not_legible (allowed : Allowlist) (illegible : ¬ Legible executable) :
    ∃ refusal, checkExecutable allowed executable = .settled (.error refusal) := by
  rw [legible_iff, not_and_or, Bool.not_eq_false, Bool.not_eq_false] at illegible
  unfold checkExecutable
  split
  · exact ⟨_, rfl⟩
  · rename_i visible
    rw [if_pos (illegible.resolve_left visible)]
    exact ⟨_, rfl⟩

theorem checkExecutable_of_bare (legible : Legible executable) (plain : ¬ Located executable) :
    checkExecutable allowed executable =
      .settled
        (if allowed.contains executable then .ok () else .error (.notAllowed executable)) := by
  obtain ⟨visible, straight⟩ := legible_iff.mp legible
  rw [← isPath_eq_true_iff] at plain
  rw [checkExecutable, if_neg (by simp [visible]), if_neg (by simp [straight]), if_neg plain]
  split <;> rfl

/-- A token with a separator is looked up, and its name is looked at if it is a regular file. -/
theorem checkExecutable_of_located (allowed : Allowlist) (legible : Legible executable)
    (located : Located executable) :
    ∃ next, checkExecutable allowed executable = .ask executable next ∧
      next .file = .settled (checkName allowed executable) ∧
        ∀ kind, kind ≠ .file → ∃ refusal, next kind = .settled (.error refusal) := by
  obtain ⟨visible, straight⟩ := legible_iff.mp legible
  rw [← isPath_eq_true_iff] at located
  simp only [checkExecutable, visible, straight, located]
  refine ⟨_, rfl, rfl, ?_⟩
  intro kind other
  cases kind with
  | missing => exact ⟨_, rfl⟩
  | file => exact absurd rfl other
  | other => exact ⟨_, rfl⟩

theorem checkExecutable_eq_ok_iff :
    (checkExecutable allowed executable).verdict probe = .ok () ↔
      Legible executable ∧ Allowed allowed probe executable := by
  by_cases legible : Legible executable
  · rw [and_iff_right legible]
    by_cases located : Located executable
    · obtain ⟨next, asks, file, refuses⟩ := checkExecutable_of_located allowed legible located
      rw [asks, Inquiry.verdict]
      by_cases regular : probe executable = .file
      · rw [regular, file, Inquiry.verdict, checkName_eq_ok_iff]
        constructor
        · rintro ⟨name, named, some, listed⟩
          exact .found located regular named some listed
        · intro granted
          cases granted with
          | bare plain listed => exact absurd located plain
          | found _ _ named some listed => exact ⟨_, named, some, listed⟩
      · obtain ⟨refusal, refused⟩ := refuses _ regular
        rw [refused, Inquiry.verdict]
        refine iff_of_false nofun ?_
        intro granted
        cases granted with
        | bare plain listed => exact plain located
        | found _ file => exact regular file
    · rw [checkExecutable_of_bare legible located, Inquiry.verdict]
      constructor
      · intro accepted
        refine .bare located (Allowlist.contains_eq_true_iff.mp ?_)
        by_contra unlisted
        simp [unlisted] at accepted
      · intro granted
        cases granted with
        | bare plain listed => simp [Allowlist.contains_eq_true_iff.mpr listed]
        | found there => exact absurd there located
  · obtain ⟨refusal, refused⟩ := checkExecutable_of_not_legible allowed legible
    rw [refused, Inquiry.verdict]
    exact iff_of_false nofun fun ⟨legible', _⟩ => legible legible'

/-- What is looked up is the executable, once the rules about its text have been met. -/
theorem asked_checkExecutable : (checkExecutable allowed executable).asked probe = [] ∨
    Legible executable ∧ Located executable ∧
      (checkExecutable allowed executable).asked probe = [executable] := by
  by_cases legible : Legible executable
  · by_cases located : Located executable
    · obtain ⟨next, asks, file, refuses⟩ := checkExecutable_of_located allowed legible located
      refine .inr ⟨legible, located, ?_⟩
      rw [asks, Inquiry.asked]
      by_cases regular : probe executable = .file
      · rw [regular, file, Inquiry.asked]
      · obtain ⟨refusal, refused⟩ := refuses _ regular
        rw [refused, Inquiry.asked]
    · rw [checkExecutable_of_bare legible located]
      exact .inl rfl
  · obtain ⟨refusal, refused⟩ := checkExecutable_of_not_legible allowed legible
    rw [refused]
    exact .inl rfl

/-- An inquiry hears of the probe only what it asks. -/
theorem Inquiry.congr {other : String → PathKind} (inquiry : Inquiry)
    (same : ∀ path ∈ inquiry.asked probe, other path = probe path) :
    inquiry.verdict other = inquiry.verdict probe ∧ inquiry.asked other = inquiry.asked probe := by
  induction inquiry with
  | settled verdict => exact ⟨rfl, rfl⟩
  | ask path next ih =>
      have here := same path List.mem_cons_self
      have after := ih (probe path) fun later member => same later (List.mem_cons_of_mem _ member)
      simp only [Inquiry.verdict, Inquiry.asked, here]
      exact ⟨after.1, congrArg _ after.2⟩

/-! ## Whole command lines -/

theorem inquire_of_clean (clean : ∀ index, ¬ UnsafeAt (executable :: arguments) index) :
    inquire allowed (executable :: arguments) = checkExecutable allowed executable := by
  simp [inquire, findIdx?_hasUnsafe_eq_none_iff.mpr clean]

theorem inquire_of_unsafe {index : Nat} (found : UnsafeAt argv index)
    (least : ∀ earlier < index, ¬ UnsafeAt argv earlier) :
    inquire allowed argv = .settled (.error (.unsafeCharacters index)) := by
  cases argv with
  | nil =>
      obtain ⟨token, absent, _⟩ := found
      cases absent
  | cons executable arguments =>
      simp [inquire, findIdx?_hasUnsafe_eq_some_iff.mpr ⟨found, least⟩]

theorem exists_least_unsafe {index : Nat} (found : UnsafeAt argv index) :
    ∃ least, UnsafeAt argv least ∧ ∀ earlier < least, ¬ UnsafeAt argv earlier := by
  cases search : argv.findIdx? hasUnsafe with
  | some least => exact ⟨least, findIdx?_hasUnsafe_eq_some_iff.mp search⟩
  | none => exact absurd found (findIdx?_hasUnsafe_eq_none_iff.mp search index)

/-- A command line that the rules allow. -/
structure Acceptable (allowed : Allowlist) (probe : String → PathKind) (executable : String)
    (arguments : List String) : Prop extends Legible executable where
  clean : ∀ index, ¬ UnsafeAt (executable :: arguments) index
  granted : Allowed allowed probe executable

theorem Acceptable.congr {other : List String}
    (same : (∃ index, UnsafeAt arguments index) ↔ ∃ index, UnsafeAt other index)
    (accepted : Acceptable allowed probe executable arguments) :
    Acceptable allowed probe executable other where
  toLegible := accepted.toLegible
  clean := by
    have clean := accepted.clean
    rw [clean_cons_iff] at clean ⊢
    exact clean.imp_right (mt same.mpr)
  granted := accepted.granted

theorem check_eq_ok_iff : check allowed probe argv = .ok () ↔
    ∃ executable arguments, argv = executable :: arguments ∧
      Acceptable allowed probe executable arguments := by
  cases argv with
  | nil => exact iff_of_false nofun nofun
  | cons executable arguments =>
      by_cases clean : ∀ index, ¬ UnsafeAt (executable :: arguments) index
      · rw [check, inquire_of_clean clean, checkExecutable_eq_ok_iff]
        constructor
        · rintro ⟨legible, granted⟩
          exact ⟨executable, arguments, rfl, legible, clean, granted⟩
        · rintro ⟨_, _, ⟨⟩, accepted⟩
          exact ⟨accepted.toLegible, accepted.granted⟩
      · obtain ⟨index, found⟩ := not_forall_not.mp clean
        obtain ⟨least, holds, before⟩ := exists_least_unsafe found
        rw [check, inquire_of_unsafe holds before]
        refine iff_of_false nofun ?_
        rintro ⟨_, _, ⟨⟩, accepted⟩
        exact clean accepted.clean

theorem probed_eq : probed allowed probe argv = [] ∨
    ∃ executable arguments, argv = executable :: arguments ∧
      (∀ index, ¬ UnsafeAt argv index) ∧ Legible executable ∧ Located executable ∧
        probed allowed probe argv = [executable] := by
  cases argv with
  | nil => exact .inl rfl
  | cons executable arguments =>
      by_cases clean : ∀ index, ¬ UnsafeAt (executable :: arguments) index
      · rw [probed, inquire_of_clean clean]
        exact asked_checkExecutable.imp_right fun ⟨legible, located, asked⟩ =>
          ⟨executable, arguments, rfl, clean, legible, located, asked⟩
      · obtain ⟨index, found⟩ := not_forall_not.mp clean
        obtain ⟨least, holds, before⟩ := exists_least_unsafe found
        rw [probed, inquire_of_unsafe holds before]
        exact .inl rfl

/-- Tokens after the first count by the numbers of those that are unsafe, and by nothing else. -/
theorem inquire_congr {other : List String}
    (same : ∀ index, UnsafeAt arguments index ↔ UnsafeAt other index) :
    inquire allowed (executable :: other) = inquire allowed (executable :: arguments) := by
  have found : (executable :: other).findIdx? hasUnsafe =
      (executable :: arguments).findIdx? hasUnsafe := by
    simp only [List.findIdx?_cons, findIdx?_hasUnsafe_congr same]
  simp only [inquire, found]

/--
The check accepts what the rules allow.  It reports the first token that is
unsafe, looks up at most the executable and that only once the rules before have
been met, and of the other tokens regards nothing but unsafe characters.
-/
theorem check_exact (allowed : Allowlist) (probe : String → PathKind) (argv : List String) :
    (check allowed probe argv = .ok () ↔
      ∃ executable arguments, argv = executable :: arguments ∧
        Acceptable allowed probe executable arguments) ∧
    ((∃ index, UnsafeAt argv index) → ∃ least, UnsafeAt argv least ∧
      (∀ earlier < least, ¬ UnsafeAt argv earlier) ∧
        check allowed probe argv = .error (.unsafeCharacters least)) ∧
    (probed allowed probe argv = [] ∨
      ∃ executable arguments, argv = executable :: arguments ∧
        (∀ index, ¬ UnsafeAt argv index) ∧ Legible executable ∧ Located executable ∧
          probed allowed probe argv = [executable]) ∧
    (∀ other : String → PathKind, (∀ path ∈ probed allowed probe argv, other path = probe path) →
      check allowed other argv = check allowed probe argv ∧
        probed allowed other argv = probed allowed probe argv) ∧
    ∀ executable arguments, argv = executable :: arguments → ∀ other : List String,
      ((∀ index, UnsafeAt arguments index ↔ UnsafeAt other index) →
        check allowed probe (executable :: other) = check allowed probe argv ∧
          probed allowed probe (executable :: other) = probed allowed probe argv) ∧
      (((∃ index, UnsafeAt arguments index) ↔ ∃ index, UnsafeAt other index) →
        (check allowed probe (executable :: other) = .ok () ↔
          check allowed probe argv = .ok ())) := by
  refine ⟨check_eq_ok_iff, ?_, probed_eq, fun other same => Inquiry.congr _ same, ?_⟩
  · rintro ⟨index, found⟩
    obtain ⟨least, holds, before⟩ := exists_least_unsafe found
    exact ⟨least, holds, before, by rw [check, inquire_of_unsafe holds before]; rfl⟩
  · rintro executable arguments rfl other
    constructor
    · intro same
      rw [check, probed, inquire_congr same]
      exact ⟨rfl, rfl⟩
    · intro same
      rw [check_eq_ok_iff, check_eq_ok_iff]
      constructor
      · rintro ⟨_, _, ⟨⟩, accepted⟩
        exact ⟨_, _, rfl, accepted.congr same.symm⟩
      · rintro ⟨_, _, ⟨⟩, accepted⟩
        exact ⟨_, _, rfl, accepted.congr same⟩

end Command

end Turnstile
