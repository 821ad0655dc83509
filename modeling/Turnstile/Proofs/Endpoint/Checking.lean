import Turnstile.Proofs.Command.Acceptance
import Turnstile.Proofs.Endpoint.Reading

/-!
# Checking a command that was pointed at a server

To point a command at a server is to take some of its arguments away and to put
others in their place.  The check looks at arguments for unsafe characters only, so
that its verdicts on the command before and after differ in these at most.
-/

namespace Turnstile

/-- A refusal for a character in a token after the executable. -/
def Refusal.IsOfArgument (refusal : Refusal) : Prop :=
  ∃ index, refusal = .unsafeCharacters (index + 1)

namespace Command

variable {allowed : Allowlist} {probe : String → PathKind} {executable : String}
  {arguments : List String}

theorem exists_unsafeAt_iff {tokens : List String} :
    (∃ index, UnsafeAt tokens index) ↔ ∃ token ∈ tokens, hasUnsafe token = true := by
  simp only [unsafeAt_iff, List.mem_iff_getElem?]
  constructor
  · rintro ⟨index, token, found, holds⟩
    exact ⟨token, ⟨index, found⟩, holds⟩
  · rintro ⟨token, ⟨index, found⟩, holds⟩
    exact ⟨index, token, found, holds⟩

/-- What decides about a command: its first unsafe token or, if there is none, its executable. -/
inductive Decided (allowed : Allowlist) (probe : String → PathKind) (executable : String)
    (arguments : List String) : Except Refusal Unit → Prop where
  | first (found : UnsafeAt [executable] 0) :
      Decided allowed probe executable arguments (.error (.unsafeCharacters 0))
  | argument {index : Nat} (clean : ¬ UnsafeAt [executable] 0) (found : UnsafeAt arguments index) :
      Decided allowed probe executable arguments (.error (.unsafeCharacters (index + 1)))
  | clean (clean : ¬ UnsafeAt [executable] 0) (others : ¬ ∃ index, UnsafeAt arguments index) :
      Decided allowed probe executable arguments
        ((checkExecutable allowed executable).verdict probe)

theorem decided_check (allowed : Allowlist) (probe : String → PathKind) (executable : String)
    (arguments : List String) :
    Decided allowed probe executable arguments
      (check allowed probe (executable :: arguments)) := by
  by_cases clean : ∀ index, ¬ UnsafeAt (executable :: arguments) index
  · obtain ⟨own, others⟩ := clean_cons_iff.mp clean
    rw [check, inquire_of_clean clean]
    exact .clean own others
  · obtain ⟨index, found⟩ := not_forall_not.mp clean
    obtain ⟨least, holds, before⟩ := exists_least_unsafe found
    rw [check, inquire_of_unsafe holds before]
    cases least with
    | zero => exact .first holds
    | succ least => exact .argument (before 0 (Nat.succ_pos least)) holds

end Command

namespace Endpoint

open Command

theorem hasUnsafe_toString (port : UInt16) : hasUnsafe (toString port) = false := by
  rw [hasUnsafe, List.any_eq_false]
  intro c member
  have digits : (toString port).toList = Nat.toDigits 10 port.toNat := Nat.toList_repr
  rw [digits] at member
  have digit := Nat.isDigit_of_mem_toDigits (by omega) (by omega) member
  intro bad
  simp only [isUnsafe, Bool.or_eq_true, beq_iff_eq] at bad
  rcases bad with (rfl | rfl) | rfl <;> simp at digit

theorem hasUnsafe_flag {flag : String} (known : flag ∈ flags) : hasUnsafe flag = false := by
  revert flag
  decide

/-- Of what points a client at a server only the host can be unsafe. -/
theorem any_hasUnsafe_arguments (endpoint : Endpoint) :
    endpoint.arguments.any hasUnsafe = hasUnsafe endpoint.host := by
  have hint : hasUnsafe endpoint.hint.name = false := by cases endpoint.hint <;> decide
  have protocol : hasUnsafe endpoint.protocol.name = false := by
    cases endpoint.protocol <;> decide
  have port := hasUnsafe_toString endpoint.port
  simp only [arguments]
  split <;> split <;> simp (disch := decide) [hasUnsafe_flag, port, hint, protocol]

variable {allowed : Allowlist} {probe : String → PathKind} {executable : String}
  {arguments : List String} {endpoint : Endpoint}

/-- What is unsafe once a command was pointed at a server is the host, or is left of the command. -/
theorem exists_unsafeAt_pointed_iff :
    (∃ index, UnsafeAt (endpoint.arguments ++ stripTail arguments) index) ↔
      UnsafeAt [endpoint.host] 0 ∨ ∃ index, UnsafeAt (others arguments) index := by
  have host : UnsafeAt [endpoint.host] 0 ↔ hasUnsafe endpoint.host = true := by
    simp [unsafeAt_iff]
  rw [host, ← any_hasUnsafe_arguments, exists_unsafeAt_iff, exists_unsafeAt_iff,
    ← stripTail_eq_others, List.any_eq_true]
  simp only [List.mem_append, or_and_right, exists_or]

theorem exists_unsafeAt_of_others (found : ∃ index, UnsafeAt (others arguments) index) :
    ∃ index, UnsafeAt arguments index := by
  rw [exists_unsafeAt_iff] at found ⊢
  obtain ⟨token, member, holds⟩ := found
  rw [← stripTail_eq_others] at member
  exact ⟨token, (stripTail_sublist arguments).mem member, holds⟩

/-- The verdicts on a command as it is given, and on the command pointed at a server. -/
structure CheckedAlike (executable : String) (arguments : List String) (endpoint : Endpoint)
    (given pointed : Except Refusal Unit) : Prop where
  /-- They differ only if an argument or the host is unsafe, and the executable is not. -/
  same : UnsafeAt [executable] 0 ∨
      (¬ ∃ index, UnsafeAt arguments index) ∧ ¬ UnsafeAt [endpoint.host] 0 → pointed = given
  /-- What is accepted as given is refused for the host only. -/
  refused : ∀ {refusal}, given = .ok () → pointed = .error refusal →
    refusal.IsOfArgument ∧ UnsafeAt [endpoint.host] 0
  /-- What is refused as given is accepted only if it was for arguments that are taken away. -/
  accepted : ∀ {refusal}, given = .error refusal → pointed = .ok () →
    refusal.IsOfArgument ∧ ¬ ∃ index, UnsafeAt (others arguments) index
  /-- Two refusals for different reasons have to do with arguments. -/
  reasons : ∀ {refusal other}, given = .error refusal → pointed = .error other →
    other = refusal ∨ refusal.IsOfArgument ∨ other.IsOfArgument ∧ UnsafeAt [endpoint.host] 0

theorem checkedAlike (allowed : Allowlist) (probe : String → PathKind) (executable : String)
    (arguments : List String) (endpoint : Endpoint) :
    CheckedAlike executable arguments endpoint (check allowed probe (executable :: arguments))
      (check allowed probe (apply (executable :: arguments) endpoint)) := by
  have given := decided_check allowed probe executable arguments
  have pointed := decided_check allowed probe executable (endpoint.arguments ++ stripTail arguments)
  rw [← apply_cons] at pointed
  have unsafe_host (found : ∃ index, UnsafeAt (endpoint.arguments ++ stripTail arguments) index)
      (clean : ¬ ∃ index, UnsafeAt arguments index) : UnsafeAt [endpoint.host] 0 :=
    (exists_unsafeAt_pointed_iff.mp found).resolve_right fun left =>
      clean (exists_unsafeAt_of_others left)
  generalize check allowed probe (executable :: arguments) = verdict at given
  generalize check allowed probe (apply (executable :: arguments) endpoint) = other at pointed
  cases given with
  | first found =>
      cases pointed with
      | first =>
          refine ⟨fun _ => rfl, nofun, nofun, ?_⟩
          rintro _ _ ⟨⟩ ⟨⟩
          exact .inl rfl
      | argument clean => exact absurd found clean
      | clean clean => exact absurd found clean
  | @argument index clean found =>
      have own : ¬ (UnsafeAt [executable] 0 ∨
          (¬ ∃ index, UnsafeAt arguments index) ∧ ¬ UnsafeAt [endpoint.host] 0) := by
        rintro (bad | ⟨none, _⟩)
        · exact clean bad
        · exact none ⟨index, found⟩
      refine ⟨fun same => absurd same own, nofun, ?_, ?_⟩
      · rintro _ ⟨⟩ accepted
        refine ⟨⟨index, rfl⟩, fun left => ?_⟩
        cases pointed with
        | first => cases accepted
        | argument => cases accepted
        | clean _ none => exact none (exists_unsafeAt_pointed_iff.mpr (.inr left))
      · rintro _ _ ⟨⟩ _
        exact .inr (.inl ⟨index, rfl⟩)
  | clean clean none =>
      cases pointed with
      | first found => exact absurd found clean
      | @argument index _ found =>
          have host := unsafe_host ⟨index, found⟩ none
          refine ⟨?_, ?_, nofun, ?_⟩
          · rintro (bad | ⟨_, safe⟩)
            · exact absurd bad clean
            · exact absurd host safe
          · rintro _ _ ⟨⟩
            exact ⟨⟨index, rfl⟩, host⟩
          · rintro _ _ _ ⟨⟩
            exact .inr (.inr ⟨⟨index, rfl⟩, host⟩)
      | clean =>
          generalize (checkExecutable allowed executable).verdict probe = verdict
          refine ⟨fun _ => rfl, ?_, ?_, ?_⟩
          · rintro _ rfl ⟨⟩
          · rintro _ rfl ⟨⟩
          · rintro _ _ rfl ⟨⟩
            exact .inl rfl

end Endpoint

end Turnstile
