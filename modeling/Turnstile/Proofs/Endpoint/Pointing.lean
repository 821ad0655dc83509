import Turnstile.Proofs.Endpoint.Checking

/-!
# Pointing a command and checking it

The check of a command that was pointed at a server goes as the check of the command
without endpoint flags.  Only the numbers of unsafe arguments differ, for the tokens
that name the server stand before them.
-/

namespace Turnstile

/-- The refusal in place of another when more tokens stand right after the executable. -/
def Refusal.moved (count : Nat) : Refusal → Refusal
  | .unsafeCharacters (index + 1) => .unsafeCharacters (index + 1 + count)
  | refusal => refusal

namespace Command

variable {allowed : Allowlist} {probe : String → PathKind} {executable : String}
  {arguments : List String}

/-- The executable's characters are looked at first, then the arguments', then its text. -/
theorem inquire_cons : inquire allowed (executable :: arguments) =
    if hasUnsafe executable then .settled (.error (.unsafeCharacters 0))
    else match arguments.findIdx? hasUnsafe with
      | some index => .settled (.error (.unsafeCharacters (index + 1)))
      | none => checkExecutable allowed executable := by
  rw [inquire, List.findIdx?_cons]
  cases hasUnsafe executable with
  | true => rfl
  | false => cases arguments.findIdx? hasUnsafe <;> rfl

/-- A refusal for the executable's text says nothing of the tokens after it. -/
theorem mapError_moved_checkExecutable (count : Nat) :
    ((checkExecutable allowed executable).verdict probe).mapError (Refusal.moved count) =
      (checkExecutable allowed executable).verdict probe := by
  unfold checkExecutable
  split
  · rfl
  · split
    · rfl
    · split
      · rw [Inquiry.verdict]
        cases probe executable with
        | missing => rfl
        | other => rfl
        | file =>
            simp only [Inquiry.verdict, checkName]
            split
            · rfl
            · split <;> rfl
      · split <;> rfl

theorem findIdx?_append_of_clean {inserted : List String} (clean : inserted.any hasUnsafe = false)
    (arguments : List String) : (inserted ++ arguments).findIdx? hasUnsafe =
      (arguments.findIdx? hasUnsafe).map (· + inserted.length) := by
  have none : inserted.findIdx? hasUnsafe = none := by
    simpa [List.findIdx?_eq_none_iff] using clean
  rw [List.findIdx?_append, none, Option.none_or]

/-- Clean tokens after the executable move what is said of the tokens behind them. -/
theorem check_insert {inserted : List String} (clean : inserted.any hasUnsafe = false)
    (allowed : Allowlist) (probe : String → PathKind) (executable : String)
    (arguments : List String) :
    check allowed probe (executable :: (inserted ++ arguments)) =
        (check allowed probe (executable :: arguments)).mapError
          (Refusal.moved inserted.length) ∧
      probed allowed probe (executable :: (inserted ++ arguments)) =
        probed allowed probe (executable :: arguments) := by
  simp only [check, probed, inquire_cons, findIdx?_append_of_clean clean]
  split
  · exact ⟨rfl, rfl⟩
  · cases arguments.findIdx? hasUnsafe with
    | none => exact ⟨(mapError_moved_checkExecutable _).symm, rfl⟩
    | some index =>
        refine ⟨?_, rfl⟩
        simp [Inquiry.verdict, Except.mapError, Refusal.moved, Nat.add_right_comm]

end Command

namespace Endpoint

open Command

variable {endpoint : Endpoint}

/-- Host and port are always named, the hint and the protocol if they are not the usual ones. -/
theorem length_arguments (endpoint : Endpoint) : endpoint.arguments.length =
    4 + (if endpoint.hint = .auto then 0 else 2) + if endpoint.protocol = .http then 0 else 2 := by
  simp only [Endpoint.arguments, List.length_append]
  split <;> split <;> rfl

theorem unsafeAt_singleton_iff {token : String} : UnsafeAt [token] 0 ↔ hasUnsafe token = true := by
  simp [unsafeAt_iff]

theorem any_hasUnsafe_arguments_of_clean (clean : ¬ UnsafeAt [endpoint.host] 0) :
    endpoint.arguments.any hasUnsafe = false := by
  rw [any_hasUnsafe_arguments, Bool.eq_false_iff, Ne, ← unsafeAt_singleton_iff]
  exact clean

/--
A command pointed at a server with a clean host is accepted if the command without endpoint
flags is, and refused as that is, but for the numbers of unsafe arguments; and the same path
is looked up.
-/
theorem check_apply_of_clean_host (clean : ¬ UnsafeAt [endpoint.host] 0) (allowed : Allowlist)
    (probe : String → PathKind) (executable : String) (arguments : List String) :
    (check allowed probe (apply (executable :: arguments) endpoint) = .ok () ↔
      check allowed probe (strip (executable :: arguments)) = .ok ()) ∧
    (∀ refusal, check allowed probe (strip (executable :: arguments)) = .error refusal →
      check allowed probe (apply (executable :: arguments) endpoint) = .error (refusal.moved
        (4 + (if endpoint.hint = .auto then 0 else 2) +
          if endpoint.protocol = .http then 0 else 2))) ∧
    probed allowed probe (apply (executable :: arguments) endpoint) =
      probed allowed probe (strip (executable :: arguments)) := by
  obtain ⟨verdict, asked⟩ := check_insert (any_hasUnsafe_arguments_of_clean clean) allowed probe
    executable (stripTail arguments)
  rw [apply_cons, strip, verdict, ← length_arguments]
  refine ⟨?_, ?_, asked⟩
  · cases check allowed probe (executable :: stripTail arguments) <;> simp [Except.mapError]
  · intro refusal refused
    rw [refused]
    rfl

/-- An unsafe argument is counted behind the eight tokens that name a remote server. -/
theorem check_apply_of_clean_host_remote :
    ¬ UnsafeAt ["10.0.0.1"] 0 ∧
      check .standard (fun _ => .missing) (strip ["unoconvert", "--port=1", "in\n"]) =
        .error (.unsafeCharacters 1) ∧
      check .standard (fun _ => .missing)
          (apply ["unoconvert", "--port=1", "in\n"] ⟨"10.0.0.1", 2003, .remote, .https⟩) =
        .error (.unsafeCharacters 9) := by
  have clean : ¬ UnsafeAt ["10.0.0.1"] 0 := by
    rw [unsafeAt_singleton_iff]
    decide
  have refused : check .standard (fun _ => .missing) (strip ["unoconvert", "--port=1", "in\n"]) =
      .error (.unsafeCharacters 1) := by
    decide
  have pointed := @check_apply_of_clean_host ⟨"10.0.0.1", 2003, .remote, .https⟩ clean
    .standard (fun _ => .missing) "unoconvert" ["--port=1", "in\n"]
  exact ⟨clean, refused, pointed.2.1 _ refused⟩

end Endpoint

end Turnstile
