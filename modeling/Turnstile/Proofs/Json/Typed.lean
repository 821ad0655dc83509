import Turnstile.Json.Read
import Turnstile.Proofs.Json.Scan

/-!
# Reading what a text spells

A reader reads a value if it takes every text of the value, whatever blanks stand in it
and before it, and returns what the value stands for.  So do the readers of scalars with
the values that are written for them, and the readers of lists and objects with values
whose parts are read.
-/

namespace Turnstile.Json

/-- Every text of `tree` is read as `x`. -/
def Reads {α : Type} (read : Reader α) (tree : Tree) (x : α) : Prop :=
  ∀ ⦃text : List Char⦄, Spells tree text → ∀ ⦃blanks rest : List Char⦄, Blank blanks →
    Follows rest → read (blanks ++ (text ++ rest)) = .ok (x, rest)

variable {α β σ : Type} {read : Reader α}

theorem Reads.map {tree : Tree} {x : α} (reads : Reads read tree x) {f : α → β} {y : β}
    (same : f x = y) : Reads (fun cs => mapRead f (read cs)) tree y := by
  intro text spelled blanks rest blank follows
  simp only [reads spelled blank follows, mapRead, same]

/-- A text with blanks around it is read as what it spells. -/
theorem Reads.whole {tree : Tree} {x : α} (reads : Reads read tree x) {text : List Char}
    (written : Writes tree text) : readWhole read text = .ok x := by
  obtain ⟨before, body, after, rfl, blank, blank', spelled⟩ := written
  have follows : Follows after := by
    simpa using follows_append blank' follows_nil
  have closed : skipSpace after = [] := by
    simpa [skipSpace] using skipSpace_append blank' []
  simp [readWhole, reads spelled blank follows, closed]

/-! ## Scalars -/

theorem reads_bool (value : Bool) : Reads readBool (Value.bool value).tree value := by
  intro text spelled blanks rest blank _
  cases value <;> cases spelled <;> rw [readBool, skipSpace_append blank] <;> rfl

theorem reads_text (value : String) : Reads readText (Value.text value).tree value := by
  intro text spelled blanks rest blank _
  have spaced := spelled.skipSpace blank rest
  obtain ⟨inner, rfl, string⟩ := spelled
  rw [readText, spaced]
  simp [readString_append string, mapRead]

/-- A text is read as `null` only if it is the text of `null`. -/
theorem reads_optional {encode : α → Value} (value? : Option α)
    (reads : ∀ x, Reads read (encode x).tree x) (some_ne_null : ∀ x, (encode x).tree ≠ .null) :
    Reads (readOptional read) (Value.ofOption encode value?).tree value? := by
  intro text spelled blanks rest blank follows
  have spaced := spelled.skipSpace blank rest
  cases value? with
  | none =>
      cases spelled
      rw [readOptional, spaced]
      rfl
  | some x =>
      obtain ⟨c, more, rfl, opens⟩ := spelled.opens
      rw [readOptional, spaced]
      split
      · rename_i same
        cases same
        exact absurd (opens.null rfl) (some_ne_null x)
      · have value := reads x spelled blank_nil follows
        rw [List.nil_append] at value
        rw [value]
        rfl

theorem toDigits_head_ne (n : Nat) (positive : n ≠ 0) {c : Char} {cs : List Char}
    (digits : Nat.toDigits 10 n = c :: cs) : c ≠ '0' := by
  induction n using Nat.strongRecOn generalizing c cs with
  | ind n ih =>
      rw [Nat.toDigits_eq_if (by omega)] at digits
      split at digits
      · cases digits
        rwa [ne_eq, Nat.digitChar_eq_zero]
      · cases more : Nat.toDigits 10 (n / 10) with
        | nil => exact absurd more Nat.toDigits_ne_nil
        | cons d ds =>
            rw [more] at digits
            cases digits
            exact ih (n / 10) (by omega) (by omega) more

theorem isWhole_toDigits (n : Nat) : IsWhole (Nat.toDigits 10 n) := by
  cases n with
  | zero => exact .zero
  | succ n =>
      have all : ∀ c ∈ Nat.toDigits 10 (n + 1), c.isDigit = true := fun c member =>
        Nat.isDigit_of_mem_toDigits (by omega) (by omega) member
      cases digits : Nat.toDigits 10 (n + 1) with
      | nil => exact absurd digits Nat.toDigits_ne_nil
      | cons c cs =>
          rw [digits] at all
          exact .digits (toDigits_head_ne _ (by omega) digits) all

theorem digitsValue_toDigits (n : Nat) : digitsValue (Nat.toDigits 10 n) = n := by
  have folded := Nat.ofDigitChars_ten_toDigits (n := n)
  rw [Nat.ofDigitChars_eq_foldl] at folded
  simpa only [digitsValue, Nat.mul_comm] using folded

theorem toList_ofNat (n : Nat) : (toString n).toList = Nat.toDigits 10 n :=
  Nat.toList_repr

/-- Integers that a number in a text can denote. -/
def Fits (n : Int) : Prop :=
  -0x8000000000000000 ≤ n ∧ n ≤ wordMax

theorem wordMax_eq : wordMax = 18446744073709551615 :=
  rfl

theorem readLiteral_toDigits (negative : Bool) (n : Nat) {rest : List Char}
    (follows : Follows rest) :
    readLiteral negative (Nat.toDigits 10 n ++ rest) =
      .ok (⟨negative, Nat.toDigits 10 n, [], 0, true⟩, rest) :=
  readLiteral_append negative (isWhole_toDigits n) follows

theorem toInt?_nonneg {n : Nat} (fits : Fits n) :
    Literal.toInt? ⟨false, Nat.toDigits 10 n, [], 0, true⟩ = some (n : Int) := by
  have bound : n ≤ wordMax := Int.ofNat_le.mp fits.2
  simp [Literal.toInt?, digitsValue_toDigits, bound]

theorem toInt?_neg {n : Nat} (fits : Fits (-(n : Int))) (positive : 0 < n) :
    Literal.toInt? ⟨true, Nat.toDigits 10 n, [], 0, true⟩ = some (-(n : Int)) := by
  have bound : n ≤ Nat.pow 2 63 := by
    have := fits.1
    change n ≤ 9223372036854775808
    omega
  simp [Literal.toInt?, digitsValue_toDigits, bound, positive]

theorem boundedInt_ok {low high n : Int} {literal : Literal} (denotes : literal.toInt? = some n)
    (bounds : low ≤ n ∧ n ≤ high) (rest : List Char) :
    boundedInt low high (.ok (literal, rest)) = .ok (n, rest) := by
  simp only [boundedInt, denotes, if_pos bounds]

theorem toList_negSucc (n : Nat) :
    (toString (Int.negSucc n)).toList = '-' :: Nat.toDigits 10 (n + 1) := by
  change ("-" ++ toString (n + 1)).toList = _
  rw [String.toList_append, toList_ofNat]
  rfl

theorem hasText_ofInt (n : Int) : HasText (.ofInt n) := by
  cases n with
  | ofNat n =>
      change IsNumber (toString n).toList
      rw [toList_ofNat]
      simpa using IsNumber.parts (.inl rfl) (isWhole_toDigits n) .none .none
  | negSucc n =>
      change IsNumber (toString (Int.negSucc n)).toList
      rw [toList_negSucc]
      simpa using IsNumber.parts (.inr rfl) (isWhole_toDigits (n + 1)) .none .none

theorem reads_int {low high n : Int} (bounds : low ≤ n ∧ n ≤ high) (fits : Fits n) :
    Reads (readInt low high) (Value.ofInt n).tree n := by
  intro text spelled blanks rest blank follows
  rw [readInt, spelled.skipSpace blank rest, spelled.1]
  cases n with
  | ofNat n =>
      obtain ⟨c, cs, start, digit⟩ := (isWhole_toDigits n).head
      have literal := boundedInt_ok (toInt?_nonneg fits) bounds rest
      rw [← readLiteral_toDigits false n follows] at literal
      have same : (toString (Int.ofNat n)).toList = c :: cs := (toList_ofNat n).trans start
      rw [same]
      rw [start] at literal
      split
      · rename_i sign
        cases sign
        exact absurd digit (by decide)
      · rw [List.cons_append, List.head?_cons, Option.any_some, if_pos digit]
        exact literal
  | negSucc n =>
      have literal := boundedInt_ok (toInt?_neg (n := n + 1) fits n.succ_pos) bounds rest
      rw [← readLiteral_toDigits true (n + 1) follows] at literal
      rw [toList_negSucc]
      exact literal

theorem reads_int64 (n : Int64) : Reads readInt64 (Value.ofInt n.toInt).tree n := by
  have fits : Fits n.toInt := by
    have above := n.le_toInt
    have below := n.toInt_lt
    rw [Fits, wordMax_eq]
    omega
  exact (reads_int ⟨n.minValue_le_toInt, n.toInt_le⟩ fits).map (Int64.ofInt_toInt n)

theorem reads_uint64 (n : UInt64) : Reads readUInt64 (Value.ofNat n.toNat).tree n := by
  have bound := n.toNat_lt
  have fits : Fits (n.toNat : Int) := by
    rw [Fits, wordMax_eq]
    omega
  have bounds : (0 : Int) ≤ n.toNat ∧ (n.toNat : Int) ≤ (UInt64.size - 1 : Nat) := by
    simp only [UInt64.size]
    omega
  exact (reads_int bounds fits).map (by rw [Int.toNat_natCast, UInt64.ofNat_toNat])

/-! ## Lists -/

theorem nextItem_lead {isFirst : Bool} {lead : List Char} (leads : Leads isFirst lead)
    {item : Tree} {body : List Char} (spelled : Spells item body) (rest : List Char) :
    nextItem isFirst (lead ++ (body ++ rest)) = .ok (some (body ++ rest)) := by
  obtain ⟨c, more, start, opens⟩ := spelled.opens
  cases leads with
  | first blank =>
      rw [nextItem, spelled.skipSpace blank, start, List.cons_append]
      split
      · contradiction
      · rename_i same
        cases same
        exact absurd rfl opens.noBracket
      · rename_i same
        cases same
        exact absurd rfl opens.noComma
      · rfl
  | @next blanks between blank blank' =>
      simp only [nextItem, List.append_assoc, List.cons_append, skipSpace_append blank,
        skipSpace_cons (c := ',') rfl, spelled.skipSpace blank', Bool.false_eq_true, if_false]
      rw [start, List.cons_append]
      split
      · contradiction
      · rename_i same
        cases same
        exact absurd rfl opens.noBracket
      · rfl

theorem nextItem_close (isFirst : Bool) {blanks : List Char} (blank : Blank blanks)
    (rest : List Char) : nextItem isFirst (blanks ++ ']' :: rest) = .ok none := by
  rw [nextItem, skipSpace_append blank, skipSpace_cons rfl]
  rfl

theorem closeList_append {blanks : List Char} (blank : Blank blanks) (rest : List Char) :
    closeList (blanks ++ ']' :: rest) = .ok rest := by
  rw [closeList, skipSpace_append blank, skipSpace_cons rfl]
  rfl

/-- The items are read up to the closing bracket, which is left. -/
theorem readItems_append {items : List Tree} {xs : List α}
    (each : List.Forall₂ (Reads read) items xs) {isFirst : Bool} {text : List Char}
    (spelled : SpellsItems items isFirst text) {bound : Nat} (enough : items.length < bound)
    (rest : List Char) :
    ∃ closing, readItems read bound isFirst (text ++ rest) = .ok (xs, closing) ∧
      closeList closing = .ok rest := by
  induction each generalizing isFirst text bound with
  | nil =>
      obtain ⟨blanks, blank, rfl⟩ := spelled
      obtain _ | bound := bound
      · omega
      · rw [List.append_assoc, readItems, List.singleton_append, nextItem_close isFirst blank]
        exact ⟨_, rfl, closeList_append blank rest⟩
  | @cons item x items xs reads _ ih =>
      obtain ⟨lead, body, tail, rfl, leads, spelled, others⟩ := spelled
      obtain _ | bound := bound
      · omega
      · have value := reads spelled blank_nil (others.follows rest)
        obtain ⟨closing, found, closes⟩ := ih others (Nat.lt_of_succ_lt_succ enough)
        refine ⟨closing, ?_, closes⟩
        rw [List.append_assoc, List.append_assoc, readItems, nextItem_lead leads spelled]
        simp only [List.nil_append] at value
        simp only [value, found, mapRead]

theorem reads_list {items : List Tree} {xs : List α}
    (each : List.Forall₂ (Reads read) items xs) : Reads (readList read) (.list items) xs := by
  intro text spelled blanks rest blank _
  have spaced := spelled.skipSpace blank rest
  obtain ⟨inner, rfl, spelledItems⟩ := spelled
  have enough : items.length < (inner ++ rest).length + 1 := by
    have := spelledItems.length_lt
    rw [List.length_append]
    omega
  obtain ⟨closing, found, closes⟩ := readItems_append each spelledItems enough rest
  rw [readList, spaced, List.cons_append]
  simp only [found, closes, Except.map]

/-! ## Objects -/

/-- With what has been read `before` it, the member is read to give `after`. -/
def Takes (member : String → σ → Reader σ) (name : String) (tree : Tree)
    (before after : σ) : Prop :=
  ∀ ⦃text : List Char⦄, Spells tree text → ∀ ⦃blanks blanks' rest : List Char⦄, Blank blanks →
    Blank blanks' → Follows rest →
    member name before (blanks ++ ':' :: (blanks' ++ (text ++ rest))) = .ok (after, rest)

/-- The members are read one after another. -/
inductive TakesAll (member : String → σ → Reader σ) : List (String × Tree) → σ → σ → Prop where
  | nil {state : σ} : TakesAll member [] state state
  | cons {name : String} {tree : Tree} {members : List (String × Tree)}
      {before between after : σ} (first : Takes member name tree before between)
      (others : TakesAll member members between after) :
      TakesAll member ((name, tree) :: members) before after

theorem readColon_append {blanks : List Char} (blank : Blank blanks) (rest : List Char) :
    readColon (blanks ++ ':' :: rest) = .ok rest := by
  rw [readColon, skipSpace_append blank, skipSpace_cons rfl]
  rfl

variable {member : String → σ → Reader σ} {members : List (String × Tree)} {before after : σ}

theorem readMembers_append (takes : TakesAll member members before after) {isFirst : Bool}
    {text : List Char} (spelled : SpellsMembers members isFirst text) {bound : Nat}
    (enough : members.length < bound) (rest : List Char) :
    readMembers member bound isFirst before (text ++ rest) = .ok (after, rest) := by
  induction takes generalizing isFirst text bound with
  | nil =>
      obtain ⟨blanks, blank, rfl⟩ := spelled
      obtain _ | bound := bound
      · omega
      · rw [List.append_assoc, readMembers, skipSpace_append blank, List.singleton_append,
          skipSpace_cons rfl]
        rfl
  | @cons name tree members before between after first _ ih =>
      obtain ⟨lead, named, blanks', body, tail, rfl, leads, isNamed, blank', value, others⟩ :=
        spelled
      obtain ⟨string, blank⟩ := isNamed
      obtain _ | bound := bound
      · omega
      · have found := ih others (Nat.lt_of_succ_lt_succ enough)
        have taken := first value blank blank' (others.follows rest)
        have string := readString_append string
        cases leads with
        | first blank =>
            simp only [List.append_assoc, List.cons_append, List.nil_append, readMembers,
              skipSpace_append blank, skipSpace_cons (c := '"') rfl, string, taken,
              String.ofList_toList, found, if_true]
        | next blank blank' =>
            simp only [List.append_assoc, List.cons_append, List.nil_append, readMembers,
              skipSpace_append blank, skipSpace_append blank', skipSpace_cons (c := '"') rfl,
              skipSpace_cons (c := ',') rfl, string, taken, String.ofList_toList, found]
            rfl

theorem readObject_append (takes : TakesAll member members before after) {text : List Char}
    (spelled : SpellsMembers members true text) (rest : List Char) :
    readObject member before (text ++ rest) = .ok (after, rest) := by
  have enough : members.length < (text ++ rest).length + 1 := by
    have := spelled.length_lt
    rw [List.length_append]
    omega
  exact readMembers_append takes spelled enough rest

end Turnstile.Json
