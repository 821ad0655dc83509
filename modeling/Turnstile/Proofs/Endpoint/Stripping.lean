import Turnstile.Proofs.Endpoint.Reading

/-!
# Arguments without endpoint flags

What a token means depends on the tokens before it: after a flag on its own anything is
a value, another flag included.  The tokens that are taken away are told by their
positions, and all others are kept in order.
-/

namespace Turnstile.Endpoint

/-! ## Positions -/

/-- The token at a position is the value of the flag right before it. -/
def IsValueAt (tokens : List String) : Nat → Prop
  | 0 => False
  | index + 1 => (∃ flag ∈ flags, tokens[index]? = some flag) ∧ ¬ IsValueAt tokens index

/-- The token at a position is taken away. -/
inductive TakenAt (tokens : List String) (index : Nat) : Prop where
  | joined {flag value : String} (known : flag ∈ flags)
      (found : tokens[index]? = some (flag ++ "=" ++ value)) (own : ¬ IsValueAt tokens index)
  | alone {flag : String} (known : flag ∈ flags) (found : tokens[index]? = some flag)
      (own : ¬ IsValueAt tokens index)
  | value (follows : IsValueAt tokens index)

instance decidableIsValueAt (tokens : List String) :
    (index : Nat) → Decidable (IsValueAt tokens index)
  | 0 => isFalse id
  | index + 1 =>
    have := decidableIsValueAt tokens index
    inferInstanceAs <| Decidable <|
      (∃ flag ∈ flags, tokens[index]? = some flag) ∧ ¬ IsValueAt tokens index

theorem inlineFlag?_eq_none_iff {token : String} :
    inlineFlag? token = none ↔ ∀ flag ∈ flags, ∀ value, token ≠ flag ++ "=" ++ value := by
  rw [← joined?_eq_none_iff, joined?, List.findSome?_eq_none_iff]
  refine forall₂_congr fun flag known => ?_
  have joins : flag.toList ++ ['='] <+: token.toList ↔
      ∃ value, token = flag ++ "=" ++ value := by
    constructor
    · rintro ⟨rest, whole⟩
      refine ⟨.ofList rest, String.toList_inj.mp ?_⟩
      simp [← whole]
    · rintro ⟨value, rfl⟩
      exact ⟨value.toList, by simp⟩
  rw [← not_exists, ← joins]
  split <;> simp_all

theorem isPlain_iff {token : String} : IsPlain token ↔
    ∀ flag ∈ flags, token ≠ flag ∧ ∀ value, token ≠ flag ++ "=" ++ value := by
  rw [IsPlain, inlineFlag?_eq_none_iff]
  constructor
  · rintro ⟨unknown, split⟩ flag known
    exact ⟨fun same => unknown (same ▸ known), split flag known⟩
  · intro plain
    exact ⟨fun known => (plain token known).1 rfl, fun flag known => (plain flag known).2⟩

theorem takenAt_iff {tokens : List String} {index : Nat} : TakenAt tokens index ↔
    IsValueAt tokens index ∨ ∃ token, tokens[index]? = some token ∧ ¬ IsPlain token := by
  constructor
  · intro taken
    cases taken with
    | joined known found own =>
        refine .inr ⟨_, found, fun plain => ?_⟩
        exact (isPlain_iff.mp plain _ known).2 _ rfl
    | alone known found own => exact .inr ⟨_, found, fun plain => plain.1 known⟩
    | value follows => exact .inl follows
  · intro known
    by_cases follows : IsValueAt tokens index
    · exact .value follows
    · obtain ⟨token, found, flagged⟩ := known.resolve_left follows
      rw [isPlain_iff] at flagged
      push Not at flagged
      obtain ⟨flag, known, same⟩ := flagged
      by_cases alone : token = flag
      · exact .alone known (alone ▸ found) follows
      · obtain ⟨value, rfl⟩ := same alone
        exact .joined known found follows

instance (token : String) : Decidable (IsPlain token) :=
  inferInstanceAs (Decidable (token ∉ flags ∧ inlineFlag? token = none))

instance (tokens : List String) (index : Nat) : Decidable (TakenAt tokens index) :=
  decidable_of_iff (IsValueAt tokens index ∨ ∃ token ∈ tokens[index]?, ¬ IsPlain token)
    takenAt_iff.symm

/-- The tokens that are not taken away, in order. -/
def keptTokens (tokens : List String) : List String :=
  (tokens.zipIdx.filter fun item => ¬ TakenAt tokens item.2).map Prod.fst

/-! ## Reading on -/

variable {tokens front rest : List String}

/-- At a token that is no value everything begins anew. -/
theorem isValueAt_add {count : Nat} (fresh : ¬ IsValueAt tokens count) (index : Nat) :
    IsValueAt tokens (count + index) ↔ IsValueAt (tokens.drop count) index := by
  induction index with
  | zero => exact iff_of_false fresh id
  | succ index ih =>
      rw [← Nat.add_assoc, IsValueAt, IsValueAt, ih, List.getElem?_drop]

theorem takenAt_add {count : Nat} (fresh : ¬ IsValueAt tokens count) (index : Nat) :
    TakenAt tokens (count + index) ↔ TakenAt (tokens.drop count) index := by
  rw [takenAt_iff, takenAt_iff, isValueAt_add fresh, List.getElem?_drop]

/-- The tokens before one that is no value are judged apart from those from there on. -/
theorem keptTokens_append (fresh : ¬ IsValueAt (front ++ rest) front.length) :
    keptTokens (front ++ rest) =
      (front.zipIdx.filter fun item => ¬ TakenAt (front ++ rest) item.2).map Prod.fst ++
        keptTokens rest := by
  have judged (index : Nat) :
      TakenAt (front ++ rest) (front.length + index) ↔ TakenAt rest index := by
    rw [takenAt_add fresh, List.drop_left]
  rw [keptTokens, List.zipIdx_append, List.filter_append, List.map_append, Nat.zero_add]
  congr 1
  rw [List.zipIdx_eq_map_add, List.filter_map, List.map_map, keptTokens]
  simp only [Function.comp_def, judged]

theorem keptTokens_cons {token : String} (unknown : token ∉ flags) :
    keptTokens (token :: rest) = (if IsPlain token then [token] else []) ++ keptTokens rest := by
  have fresh : ¬ IsValueAt ([token] ++ rest) 1 := by
    rintro ⟨⟨flag, known, found⟩, _⟩
    cases found
    exact unknown known
  have own : TakenAt (token :: rest) 0 ↔ ¬ IsPlain token := by
    rw [takenAt_iff]
    simp [IsValueAt]
  rw [← List.singleton_append, keptTokens_append fresh]
  by_cases plain : IsPlain token <;> simp [own, plain]

theorem keptTokens_flag {flag : String} (known : flag ∈ flags) (value : String) :
    keptTokens (flag :: value :: rest) = keptTokens rest := by
  have follows : IsValueAt (flag :: value :: rest) 1 := ⟨⟨flag, known, rfl⟩, id⟩
  have fresh : ¬ IsValueAt ([flag, value] ++ rest) 2 := fun second => second.2 follows
  have first : TakenAt (flag :: value :: rest) 0 := .alone known rfl id
  have second : TakenAt (flag :: value :: rest) 1 := .value follows
  have split := keptTokens_append fresh
  simpa [List.zipIdx_cons, List.filter_cons, first, second] using split

theorem keptTokens_singleton {flag : String} (known : flag ∈ flags) : keptTokens [flag] = [] := by
  have taken : TakenAt [flag] 0 := .alone known rfl id
  simp [keptTokens, taken]

/-- What is taken away goes by position. -/
theorem stripTail_eq_keptTokens (tokens : List String) : stripTail tokens = keptTokens tokens := by
  fun_induction stripTail tokens with
  | case1 => rfl
  | case2 token flagged =>
      by_cases known : token ∈ flags
      · rw [keptTokens_singleton known]
      · have inline := flagged.resolve_left known
        have joined : ¬ IsPlain token := fun plain => by simp [plain.2] at inline
        rw [keptTokens_cons known, if_neg joined]
        rfl
  | case3 token plain =>
      obtain ⟨unknown, split⟩ := not_or.mp plain
      rw [keptTokens_cons unknown, if_pos ⟨unknown, by simpa using split⟩]
      rfl
  | case4 flag value rest known ih => rw [keptTokens_flag known, ih]
  | case5 token value rest unknown inline ih =>
      have joined : ¬ IsPlain token := fun plain => by simp [plain.2] at inline
      rw [keptTokens_cons unknown, if_neg joined, ih, List.nil_append]
  | case6 token value rest unknown split ih =>
      rw [keptTokens_cons unknown, if_pos ⟨unknown, by simpa using split⟩, ih,
        List.singleton_append]

/-! ## Every command line -/

/-- What is left of a command line without endpoint flags. -/
structure Stripped (argv stripped : List String) : Prop where
  /-- The first token is kept whatever it is, and of the others those that are not taken away. -/
  kept : stripped = argv.take 1 ++ keptTokens argv.tail
  sublist : stripped.Sublist argv
  plain : ∀ token ∈ stripped.tail, ∀ flag ∈ flags,
    token ≠ flag ∧ ∀ value, token ≠ flag ++ "=" ++ value
  again : strip stripped = stripped

theorem stripped_strip (argv : List String) : Stripped argv (strip argv) := by
  cases argv with
  | nil => exact ⟨rfl, .slnil, nofun, rfl⟩
  | cons executable arguments =>
      have plain (token : String) (member : token ∈ stripTail arguments) : IsPlain token :=
        isPlain_of_mem_stripTail member
      constructor
      case kept => rw [strip, stripTail_eq_keptTokens]; rfl
      case sublist => exact (stripTail_sublist arguments).cons_cons executable
      case plain => exact fun token member => isPlain_iff.mp (plain token member)
      case again => rw [strip, strip, stripTail_of_plain plain]

/-- Flags as values of flags, a run of flags, tokens that only look like flags, and a last flag
without a value. -/
example :
    keptTokens ["--host", "--port", "--port", "--host=a", "--hosts=a", "--protocol=", "x=--host",
        "--host-location", "--host-location", "in.odt", "--port"] =
      ["--hosts=a", "x=--host", "in.odt"] := by
  decide

end Turnstile.Endpoint
