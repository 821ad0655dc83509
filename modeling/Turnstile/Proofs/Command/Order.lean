import Turnstile.Proofs.Command.Acceptance

/-!
# Which broken rule is reported

The rules for command lines are listed in an order, and several can be broken at once.
The check reports the broken rule that is listed first, with one exception: of a blank
executable beside an unsafe character it reports the character, though the rule about
blank executables is listed before.
-/

namespace Turnstile.Command

variable {allowed : Allowlist} {probe : String → PathKind} {argv arguments : List String}
  {executable : String} {rule other : Nat} {refusal another : Refusal}

/-! ## Broken rules -/

/-- A command line breaks a rule, told by its place in the list of rules, which earns it a
refusal. -/
inductive Breaks (allowed : Allowlist) (probe : String → PathKind) :
    List String → Nat → Refusal → Prop where
  | empty : Breaks allowed probe [] 1 .emptyCommand
  | blank {executable : String} {arguments : List String}
      (blank : ∀ c ∈ executable.toList, Text.isBlank c = true) :
      Breaks allowed probe (executable :: arguments) 1 .blankExecutable
  | unclean {argv : List String} {index : Nat} (found : UnsafeAt argv index)
      (least : ∀ earlier < index, ¬ UnsafeAt argv earlier) :
      Breaks allowed probe argv 2 (.unsafeCharacters index)
  | traversal {executable : String} {arguments : List String}
      (dots : ['.', '.'] <:+: executable.toList) :
      Breaks allowed probe (executable :: arguments) 3 (.pathTraversal executable)
  | missing {executable : String} {arguments : List String} (located : Located executable)
      (nothing : probe executable = .missing) :
      Breaks allowed probe (executable :: arguments) 4 (.notFound executable)
  | irregular {executable : String} {arguments : List String} (located : Located executable)
      (other : probe executable = .other) :
      Breaks allowed probe (executable :: arguments) 4 (.notRegularFile executable)
  | unnamed {executable : String} {arguments : List String} (located : Located executable)
      (file : probe executable = .file) (named : Names executable "") :
      Breaks allowed probe (executable :: arguments) 4 (.noFileName executable)
  | unlisted {executable name : String} {arguments : List String} (located : Located executable)
      (file : probe executable = .file) (named : Names executable name) (some : name ≠ "")
      (absent : name ∉ allowed.names) :
      Breaks allowed probe (executable :: arguments) 4 (.notAllowed name)
  | bare {executable : String} {arguments : List String} (plain : ¬ Located executable)
      (absent : executable ∉ allowed.names) :
      Breaks allowed probe (executable :: arguments) 5 (.notAllowed executable)

/-- The rule is the first in the list that the command line breaks. -/
structure BreaksFirst (allowed : Allowlist) (probe : String → PathKind) (argv : List String)
    (rule : Nat) (refusal : Refusal) : Prop where
  breaks : Breaks allowed probe argv rule refusal
  first : ∀ lower other, lower < rule → ¬ Breaks allowed probe argv lower other

/-- A broken rule earns one refusal. -/
theorem Breaks.unique (one : Breaks allowed probe argv rule refusal)
    (two : Breaks allowed probe argv rule another) : refusal = another := by
  cases one with
  | empty => cases two; rfl
  | blank => cases two; rfl
  | unclean found least =>
      cases two with
      | unclean known before =>
          exact congrArg _ (Nat.le_antisymm (Nat.not_lt.mp fun lower => least _ lower known)
            (Nat.not_lt.mp fun lower => before _ lower found))
  | traversal => cases two; rfl
  | missing located nothing => cases two <;> simp_all
  | irregular located other => cases two <;> simp_all
  | unnamed located file named => cases two <;> simp_all [names_iff]
  | unlisted located file named => cases two <;> simp_all [names_iff]
  | bare plain => cases two; rfl

/-- There is one broken rule that is listed first. -/
theorem BreaksFirst.unique (one : BreaksFirst allowed probe argv rule refusal)
    (two : BreaksFirst allowed probe argv other another) : refusal = another := by
  rcases Nat.lt_trichotomy rule other with lower | same | lower
  · exact absurd one.breaks (two.first _ _ lower)
  · subst same
    exact one.breaks.unique two.breaks
  · exact absurd two.breaks (one.first _ _ lower)

theorem isBlankText_eq_true_iff : Text.isBlankText executable = true ↔
    ∀ c ∈ executable.toList, Text.isBlank c = true := by
  rw [Text.isBlankText, List.all_eq_true]

/-! ## The order of the check -/

/-- What is found at the path, and then its name, decides about an executable with a separator. -/
theorem verdict_checkExecutable_of_located (legible : Legible executable)
    (located : Located executable) : (checkExecutable allowed executable).verdict probe =
      match probe executable with
      | .missing => .error (.notFound executable)
      | .other => .error (.notRegularFile executable)
      | .file => checkName allowed executable := by
  obtain ⟨visible, straight⟩ := legible_iff.mp legible
  rw [← isPath_eq_true_iff] at located
  simp only [checkExecutable, visible, straight, located]
  cases kind : probe executable <;> simp [Inquiry.verdict, kind]

theorem breaks_of_located (legible : Legible executable) (located : Located executable)
    (refused : (checkExecutable allowed executable).verdict probe = .error refusal) :
    Breaks allowed probe (executable :: arguments) 4 refusal := by
  rw [verdict_checkExecutable_of_located legible located] at refused
  split at refused
  · rename_i nothing
    cases refused
    exact .missing located nothing
  · rename_i other
    cases refused
    exact .irregular located other
  · rename_i file
    simp only [checkName] at refused
    split at refused
    · rename_i unnamed
      cases refused
      exact .unnamed located file (names_iff.mpr unnamed.symm)
    · rename_i some
      split at refused
      · cases refused
      · rename_i unlisted
        cases refused
        rw [Allowlist.contains_eq_true_iff] at unlisted
        exact .unlisted located file (names_iff.mpr rfl) some unlisted

theorem breaks_of_bare (legible : Legible executable) (plain : ¬ Located executable)
    (refused : (checkExecutable allowed executable).verdict probe = .error refusal) :
    Breaks allowed probe (executable :: arguments) 5 refusal := by
  rw [checkExecutable_of_bare legible plain, Inquiry.verdict] at refused
  split at refused
  · cases refused
  · rename_i unlisted
    cases refused
    rw [Allowlist.contains_eq_true_iff] at unlisted
    exact .bare plain unlisted

/-- An executable whose text is in order breaks the fourth rule or the fifth, and none before. -/
theorem breaksFirst_of_legible (clean : ∀ index, ¬ UnsafeAt (executable :: arguments) index)
    (legible : Legible executable)
    (refused : (checkExecutable allowed executable).verdict probe = .error refusal) :
    ∃ rule, BreaksFirst allowed probe (executable :: arguments) rule refusal := by
  have sooner {lower : Nat} {other : Refusal}
      (broken : Breaks allowed probe (executable :: arguments) lower other) :
      Located executable ∧ lower = 4 ∨ ¬ Located executable ∧ lower = 5 := by
    cases broken with
    | blank blank =>
        obtain ⟨c, member, visible⟩ := legible.visible
        rw [blank c member] at visible
        cases visible
    | unclean found => exact absurd found (clean _)
    | traversal dots => exact absurd dots legible.straight
    | bare plain => exact .inr ⟨plain, rfl⟩
    | _ => exact .inl ⟨‹_›, rfl⟩
  by_cases located : Located executable
  · refine ⟨4, breaks_of_located legible located refused, fun lower other less broken => ?_⟩
    rcases sooner broken with ⟨_, rfl⟩ | ⟨plain, _⟩
    · exact Nat.lt_irrefl 4 less
    · exact plain located
  · refine ⟨5, breaks_of_bare legible located refused, fun lower other less broken => ?_⟩
    rcases sooner broken with ⟨there, _⟩ | ⟨_, rfl⟩
    · exact located there
    · exact Nat.lt_irrefl 5 less

/-- The executable of a command line without unsafe characters is judged in the listed order. -/
theorem breaksFirst_of_checkExecutable
    (clean : ∀ index, ¬ UnsafeAt (executable :: arguments) index)
    (refused : (checkExecutable allowed executable).verdict probe = .error refusal) :
    ∃ rule, BreaksFirst allowed probe (executable :: arguments) rule refusal := by
  by_cases blank : Text.isBlankText executable = true
  · rw [checkExecutable, if_pos blank] at refused
    cases refused
    refine ⟨1, .blank (isBlankText_eq_true_iff.mp blank), fun lower other less broken => ?_⟩
    cases broken <;> omega
  · by_cases dots : hasTraversal executable = true
    · rw [checkExecutable, if_neg blank, if_pos dots] at refused
      cases refused
      refine ⟨3, .traversal (Text.occursIn_eq_true_iff.mp dots), fun lower other less broken => ?_⟩
      cases broken with
      | blank known => exact blank (isBlankText_eq_true_iff.mpr known)
      | unclean found => exact clean _ found
      | _ => omega
    · have legible : Legible executable :=
        legible_iff.mpr ⟨Bool.eq_false_iff.mpr blank, Bool.eq_false_iff.mpr dots⟩
      exact breaksFirst_of_legible clean legible refused

/-- A command line that is accepted breaks no rule. -/
theorem not_breaks_of_accepted (accepted : check allowed probe argv = .ok ()) :
    ¬ Breaks allowed probe argv rule refusal := by
  obtain ⟨executable, arguments, rfl, acceptable⟩ := check_eq_ok_iff.mp accepted
  intro broken
  cases broken with
  | blank blank =>
      obtain ⟨c, member, visible⟩ := acceptable.visible
      rw [blank c member] at visible
      cases visible
  | unclean found => exact acceptable.clean _ found
  | traversal dots => exact acceptable.straight dots
  | missing located nothing =>
      cases acceptable.granted with
      | bare plain => exact plain located
      | found _ file => cases nothing.symm.trans file
  | irregular located other =>
      cases acceptable.granted with
      | bare plain => exact plain located
      | found _ file => cases other.symm.trans file
  | unnamed located _ named =>
      cases acceptable.granted with
      | bare plain => exact plain located
      | found _ _ known some => exact some ((names_iff.mp known).trans (names_iff.mp named).symm)
  | unlisted located _ named _ absent =>
      cases acceptable.granted with
      | bare plain => exact plain located
      | found _ _ known _ listed =>
          exact absent ((names_iff.mp known).trans (names_iff.mp named).symm ▸ listed)
  | bare plain absent =>
      cases acceptable.granted with
      | bare _ listed => exact absent listed
      | found located => exact plain located

/-- The executable is blank, and a token holds an unsafe character. -/
structure HidesBlank (argv : List String) : Prop where
  blank : ∃ executable arguments, argv = executable :: arguments ∧
    ∀ c ∈ executable.toList, Text.isBlank c = true
  unclean : ∃ index, UnsafeAt argv index

theorem breaksFirst_of_refused (seen : ¬ HidesBlank argv)
    (refused : check allowed probe argv = .error refusal) :
    ∃ rule, BreaksFirst allowed probe argv rule refusal := by
  cases argv with
  | nil =>
      cases refused
      refine ⟨1, .empty, fun lower other less broken => ?_⟩
      cases broken <;> omega
  | cons executable arguments =>
      by_cases clean : ∀ index, ¬ UnsafeAt (executable :: arguments) index
      · rw [check, inquire_of_clean clean] at refused
        exact breaksFirst_of_checkExecutable clean refused
      · obtain ⟨index, found⟩ := not_forall_not.mp clean
        obtain ⟨least, holds, before⟩ := exists_least_unsafe found
        rw [check, inquire_of_unsafe holds before] at refused
        cases refused
        refine ⟨2, .unclean holds before, fun lower other less broken => ?_⟩
        cases broken with
        | blank blank => exact seen ⟨⟨_, _, rfl, blank⟩, index, found⟩
        | _ => omega

/-! ## Every command line -/

/-- What the check reports of a command line. -/
structure Reports (allowed : Allowlist) (probe : String → PathKind) (argv : List String) :
    Prop where
  accepted : check allowed probe argv = .ok () ↔
    ∀ rule refusal, ¬ Breaks allowed probe argv rule refusal
  first : ¬ HidesBlank argv → ∀ refusal, check allowed probe argv = .error refusal ↔
    ∃ rule, BreaksFirst allowed probe argv rule refusal
  /-- Of a blank executable beside an unsafe character the character is reported. -/
  hidden : HidesBlank argv → BreaksFirst allowed probe argv 1 .blankExecutable ∧
    ∃ index, Breaks allowed probe argv 2 (.unsafeCharacters index) ∧
      check allowed probe argv = .error (.unsafeCharacters index)

theorem reports_check (allowed : Allowlist) (probe : String → PathKind) (argv : List String) :
    Reports allowed probe argv := by
  have hidden (hides : HidesBlank argv) : BreaksFirst allowed probe argv 1 .blankExecutable ∧
      ∃ index, Breaks allowed probe argv 2 (.unsafeCharacters index) ∧
        check allowed probe argv = .error (.unsafeCharacters index) := by
    obtain ⟨⟨executable, arguments, rfl, blank⟩, index, found⟩ := hides
    obtain ⟨least, holds, before⟩ := exists_least_unsafe found
    refine ⟨⟨.blank blank, fun lower other less broken => ?_⟩, least, .unclean holds before, ?_⟩
    · cases broken <;> omega
    · rw [check, inquire_of_unsafe holds before]
      rfl
  constructor
  case accepted =>
    refine ⟨fun accepted rule refusal => not_breaks_of_accepted accepted, fun whole => ?_⟩
    cases verdict : check allowed probe argv with
    | ok => rfl
    | error refusal =>
        by_cases hides : HidesBlank argv
        · exact absurd (hidden hides).1.breaks (whole _ _)
        · obtain ⟨rule, broken⟩ := breaksFirst_of_refused hides verdict
          exact absurd broken.breaks (whole _ _)
  case first =>
    intro seen refusal
    refine ⟨breaksFirst_of_refused seen, ?_⟩
    rintro ⟨rule, broken⟩
    cases verdict : check allowed probe argv with
    | ok => exact absurd broken.breaks (not_breaks_of_accepted verdict)
    | error another =>
        obtain ⟨other, known⟩ := breaksFirst_of_refused seen verdict
        rw [broken.unique known]
  case hidden => exact hidden

/-- The executable is blank, which the first rule forbids, and the second rule is reported. -/
theorem blank_hidden : ∃ argv, BreaksFirst .standard (fun _ => .missing) argv 1 .blankExecutable ∧
    check .standard (fun _ => .missing) argv ≠ .error .blankExecutable := by
  have blank : Text.isBlankText " " = true := by decide
  refine ⟨[" ", "a\n"], ⟨.blank (isBlankText_eq_true_iff.mp blank), ?_⟩, by decide⟩
  intro lower other less broken
  cases broken <;> omega

end Turnstile.Command
