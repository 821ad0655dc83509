import Turnstile.Proofs.Text.Utf8

/-!
# How long a text is in bytes

A text is as long as its bytes, and lenient reading makes at most three bytes of
each one.  Of well-formed bytes that are cut somewhere, the characters before the
cut are read, and the start of a character that was cut is one ill-formed part.
-/

namespace Turnstile.Text

variable {lead byte : UInt8} {rest bytes : Bytes} {c : Char} {text : String}

/-! ## The bytes of a text -/

theorem encodeChar_eq (c : Char) : encodeChar c = String.utf8EncodeChar c := by
  have valid : c.toNat < 0xD800 ∨ 0xDFFF < c.toNat ∧ c.toNat < 0x110000 := c.valid
  have same : c.val.toNat = c.toNat := rfl
  unfold encodeChar String.utf8EncodeChar
  dsimp only
  rw [same]
  by_cases one : c.toNat < 0x80
  · rw [if_pos one, if_pos (by omega)]
  have low : 0x80 + c.toNat % 64 = c.toNat % 64 + 128 := Nat.add_comm ..
  by_cases two : c.toNat < 0x800
  · have lead : 0xC0 + c.toNat / 64 = c.toNat / 64 % 32 + 192 := by omega
    rw [if_neg one, if_pos two, if_neg (by omega), if_pos (by omega), lead, low]
  have middle : 0x80 + c.toNat / 64 % 64 = c.toNat / 64 % 64 + 128 := Nat.add_comm ..
  by_cases three : c.toNat < 0x10000
  · have lead : 0xE0 + c.toNat / 4096 = c.toNat / 4096 % 16 + 224 := by omega
    rw [if_neg one, if_neg two, if_pos three, if_neg (by omega), if_neg (by omega),
      if_pos (by omega), lead, middle, low]
  · have lead : 0xF0 + c.toNat / 262144 = c.toNat / 262144 % 8 + 240 := by omega
    have high : 0x80 + c.toNat / 4096 % 64 = c.toNat / 4096 % 64 + 128 := Nat.add_comm ..
    rw [if_neg one, if_neg two, if_neg three, if_neg (by omega), if_neg (by omega),
      if_neg (by omega), lead, high, middle, low]

theorem toByteArray_encode (text : String) : (encode text).toByteArray = text.toByteArray := by
  have bytes : encodeChar = String.utf8EncodeChar := funext encodeChar_eq
  rw [encode, bytes]
  conv => rhs; rw [← String.ofList_toList (s := text), String.toByteArray_ofList]
  rfl

theorem length_encode (text : String) : (encode text).length = text.utf8ByteSize := by
  rw [← List.size_toByteArray, toByteArray_encode]
  rfl

theorem length_encodeChar (c : Char) : (encodeChar c).length = c.utf8Size := by
  rw [encodeChar_eq, String.length_utf8EncodeChar]

/-- Well-formed bytes are the bytes of a text. -/
theorem isValidUTF8_iff : bytes.toByteArray.IsValidUTF8 ↔ ∃ text, encode text = bytes := by
  constructor
  · rintro ⟨chars, same⟩
    refine ⟨String.ofList chars, List.toByteArray_inj.mp ?_⟩
    rw [toByteArray_encode, String.toByteArray_ofList, same]
  · rintro ⟨text, rfl⟩
    exact toByteArray_encode text ▸ text.isValidUTF8

@[simp] theorem encode_append (text more : String) :
    encode (text ++ more) = encode text ++ encode more := by
  simp [encode]

@[simp] theorem encode_singleton (c : Char) : encode (String.singleton c) = encodeChar c := by
  simp [encode]

/-- A byte below 128 is a character of its own. -/
theorem eq_of_mem_encodeChar (member : byte ∈ encodeChar c) (small : byte.toNat < 0x80) :
    c = Char.ofNat byte.toNat := by
  -- All bytes of a longer character are 128 or more.
  have large {n : Nat} (above : 0x80 ≤ n) (below : n < 0x100) : byte ≠ UInt8.ofNat n := by
    rintro rfl
    rw [UInt8.toNat_ofNat_of_lt' below] at small
    omega
  have valid : c.toNat < 0xD800 ∨ 0xDFFF < c.toNat ∧ c.toNat < 0x110000 := c.valid
  unfold encodeChar at member
  dsimp only at member
  split at member
  · rename_i one
    rw [List.mem_singleton] at member
    rw [member, UInt8.toNat_ofNat_of_lt' (Nat.lt_trans one (by decide)), Char.ofNat_toNat]
  split at member
  · simp only [List.mem_cons, List.not_mem_nil, or_false] at member
    rcases member with same | same
    · exact absurd same (large (by omega) (by omega))
    · exact absurd same (large (by omega) (by omega))
  split at member
  · simp only [List.mem_cons, List.not_mem_nil, or_false] at member
    rcases member with same | same | same <;> exact absurd same (large (by omega) (by omega))
  · simp only [List.mem_cons, List.not_mem_nil, or_false] at member
    rcases member with same | same | same | same <;>
      exact absurd same (large (by omega) (by omega))

theorem mem_of_mem_encode (member : byte ∈ encode text) (small : byte.toNat < 0x80) :
    Char.ofNat byte.toNat ∈ text.toList := by
  obtain ⟨c, inside, own⟩ := List.mem_flatMap.mp member
  exact eq_of_mem_encodeChar own small ▸ inside

/-! ## Lenient reading -/

@[simp] theorem decodeLossy_nil : decodeLossy [] = "" := by
  simp [decodeLossy, decode]

theorem decodeLossy_cons (lead : UInt8) (rest : Bytes) :
    decodeLossy (lead :: rest) =
      String.singleton ((decodeHead lead rest).1.getD replacement) ++
        decodeLossy (rest.drop (decodeHead lead rest).2) := by
  rw [decodeLossy, decode, List.map_cons, decodeLossy]
  simp

theorem encode_ofList (cs : List Char) : encode (String.ofList cs) = cs.flatMap encodeChar := by
  simp [encode]

/-- A text in front is read as this text. -/
theorem decodeLossy_append (text : String) (rest : Bytes) :
    decodeLossy (encode text ++ rest) = text ++ decodeLossy rest := by
  rw [decodeLossy, encode, decode_append, decodeLossy, List.map_append, List.map_map]
  simp [Function.comp_def]

theorem decodeLossy_encode (text : String) : decodeLossy (encode text) = text := by
  simpa using decodeLossy_append text []

theorem decodeHead_le (lead : UInt8) (rest : Bytes) : (decodeHead lead rest).2 ≤ rest.length := by
  unfold decodeHead
  grind

/-- A character of more than one byte takes bytes that come after the first. -/
theorem decodeHead_pos (large : 0x80 ≤ lead.toNat) (head : (decodeHead lead rest).1 = some c) :
    1 ≤ (decodeHead lead rest).2 := by
  unfold decodeHead at head ⊢
  dsimp only at head ⊢
  rw [if_neg (Nat.not_lt.mpr large)] at head ⊢
  grind

theorem utf8Size_decodeHead_le (lead : UInt8) (rest : Bytes) :
    ((decodeHead lead rest).1.getD replacement).utf8Size ≤ 3 * ((decodeHead lead rest).2 + 1) := by
  by_cases small : lead.toNat < 0x80
  · have valid : (Char.ofNat lead.toNat).toNat = lead.toNat :=
      toNat_ofNat_of_isValidChar (.inl (by omega))
    have one : (Char.ofNat lead.toNat).utf8Size = 1 := by
      rw [Char.utf8Size_eq_one_iff, UInt32.le_iff_toNat_le]
      change (Char.ofNat lead.toNat).toNat ≤ 127
      omega
    simp [decodeHead, small, one]
  · cases head : (decodeHead lead rest).1 with
    | none =>
        have three : replacement.utf8Size = 3 := by decide
        rw [Option.getD_none, three]
        omega
    | some c =>
        have taken := decodeHead_pos (Nat.not_lt.mp small) head
        have four := Char.utf8Size_le_four c
        rw [Option.getD_some]
        omega

/-- Lenient reading makes at most three bytes of each one. -/
theorem utf8ByteSize_decodeLossy_le (bytes : Bytes) :
    (decodeLossy bytes).utf8ByteSize ≤ 3 * bytes.length := by
  induction bytes using decode.induct with
  | case1 => simp
  | case2 lead rest ih =>
      have own := utf8Size_decodeHead_le lead rest
      have fits := decodeHead_le lead rest
      rw [List.length_drop] at ih
      rw [decodeLossy_cons, String.utf8ByteSize_append, String.utf8ByteSize_singleton,
        List.length_cons]
      omega

/-! ## Where a text is cut -/

/-- The first bytes of a text are all of it, or they end behind a character, or inside of one. -/
theorem cut_cases (text : String) (count : Nat) :
    text.utf8ByteSize ≤ count ∨
      (∃ before after : String, text = before ++ after ∧ before.utf8ByteSize = count ∧
        after ≠ "") ∨
      ∃ (before : String) (c : Char) (after : String),
        text = before ++ String.singleton c ++ after ∧ before.utf8ByteSize < count ∧
          count < before.utf8ByteSize + c.utf8Size := by
  obtain ⟨cs, rfl⟩ : ∃ cs, text = String.ofList cs := ⟨text.toList, String.ofList_toList.symm⟩
  induction cs generalizing count with
  | nil => exact .inl (Nat.zero_le count)
  | cons c cs ih =>
      have positive : 0 < c.utf8Size := Char.utf8Size_pos c
      rw [String.ofList_cons]
      by_cases none : count = 0
      · refine .inr (.inl ⟨"", _, (String.empty_append ..).symm, none.symm, ?_⟩)
        intro empty
        have size := congrArg String.utf8ByteSize empty
        rw [String.utf8ByteSize_append, String.utf8ByteSize_singleton, String.utf8ByteSize_empty]
          at size
        omega
      by_cases inside : count < c.utf8Size
      · refine .inr (.inr ⟨"", c, _, by rw [String.empty_append], ?_, ?_⟩)
        · exact Nat.pos_of_ne_zero none
        · rwa [String.utf8ByteSize_empty, Nat.zero_add]
      rcases ih (count - c.utf8Size) with
        fits | ⟨before, after, same, edge, more⟩ | ⟨before, d, after, same, starts, ends⟩
      · left
        rw [String.utf8ByteSize_append, String.utf8ByteSize_singleton]
        omega
      · refine .inr (.inl ⟨String.singleton c ++ before, after, ?_, ?_, more⟩)
        · rw [same, String.append_assoc]
        · rw [String.utf8ByteSize_append, String.utf8ByteSize_singleton]
          omega
      · refine .inr (.inr ⟨String.singleton c ++ before, d, after, ?_, ?_, ?_⟩)
        · rw [same, String.append_assoc, String.append_assoc, String.append_assoc]
        · rw [String.utf8ByteSize_append, String.utf8ByteSize_singleton]
          omega
        · rw [String.utf8ByteSize_append, String.utf8ByteSize_singleton]
          omega


theorem decodeHead_nil (large : 0x80 ≤ lead.toNat) : decodeHead lead [] = (none, 0) := by
  unfold decodeHead
  dsimp only
  rw [if_neg (Nat.not_lt.mpr large)]
  grind

theorem decodeHead_twoOfThree (first : 0xE0 ≤ lead.toNat ∧ lead.toNat ≤ 0xEF)
    (second : isSecondOfThree lead byte = true) : decodeHead lead [byte] = (none, 1) := by
  rw [decodeHead, if_neg (by omega), if_neg (by omega), if_pos first]
  simp only [second, if_true]

theorem decodeHead_twoOfFour (first : 0xF0 ≤ lead.toNat ∧ lead.toNat ≤ 0xF4)
    (second : isSecondOfFour lead byte = true) : decodeHead lead [byte] = (none, 1) := by
  rw [decodeHead, if_neg (by omega), if_neg (by omega), if_neg (by omega), if_pos first]
  simp only [second, if_true]

theorem decodeHead_threeOfFour {third : UInt8} (first : 0xF0 ≤ lead.toNat ∧ lead.toNat ≤ 0xF4)
    (second : isSecondOfFour lead byte = true) (middle : isContinuation third = true) :
    decodeHead lead [byte, third] = (none, 2) := by
  rw [decodeHead, if_neg (by omega), if_neg (by omega), if_neg (by omega), if_pos first]
  simp only [second, middle, if_true]

theorem decodeLossy_of_illFormed (head : decodeHead lead rest = (none, rest.length)) :
    decodeLossy (lead :: rest) = String.singleton replacement := by
  rw [decodeLossy_cons, head]
  simp

/-- The start of a character that was cut is one ill-formed part. -/
theorem decodeLossy_take_encodeChar {count : Nat} (some : 0 < count) (cut : count < c.utf8Size) :
    decodeLossy ((encodeChar c).take count) = String.singleton replacement := by
  have valid : c.toNat < 0xD800 ∨ 0xDFFF < c.toNat ∧ c.toNat < 0x110000 := c.valid
  have byte (n : Nat) (small : n < 0x100) : (UInt8.ofNat n).toNat = n :=
    UInt8.toNat_ofNat_of_lt' small
  have middle : c.toNat / 64 % 64 < 64 := by omega
  rw [← length_encodeChar] at cut
  unfold encodeChar at cut ⊢
  dsimp only at cut ⊢
  split at cut
  · rw [List.length_singleton] at cut
    omega
  rename_i two
  split at cut
  · rename_i below
    have lead := byte (0xC0 + c.toNat / 64) (by omega)
    obtain rfl : count = 1 := Nat.le_antisymm (Nat.le_of_lt_succ cut) some
    rw [if_neg two, if_pos below]
    exact decodeLossy_of_illFormed (decodeHead_nil (by omega))
  rename_i three
  split at cut
  · rename_i below
    have lead := byte (0xE0 + c.toNat / 4096) (by omega)
    have second := isSecondOfThree_ofNat (n := c.toNat) (by omega) below (by omega)
    rw [if_neg two, if_neg three, if_pos below]
    obtain rfl | rfl : count = 1 ∨ count = 2 := by
      simp only [List.length_cons, List.length_nil] at cut
      omega
    · exact decodeLossy_of_illFormed (decodeHead_nil (by omega))
    · exact decodeLossy_of_illFormed (decodeHead_twoOfThree (by omega) second)
  · rename_i four
    have lead := byte (0xF0 + c.toNat / 262144) (by omega)
    have second := isSecondOfFour_ofNat (n := c.toNat) (by omega) (by omega)
    rw [if_neg two, if_neg three, if_neg four]
    obtain rfl | rfl | rfl : count = 1 ∨ count = 2 ∨ count = 3 := by
      simp only [List.length_cons, List.length_nil] at cut
      omega
    · exact decodeLossy_of_illFormed (decodeHead_nil (by omega))
    · exact decodeLossy_of_illFormed (decodeHead_twoOfFour (by omega) second)
    · exact decodeLossy_of_illFormed
        (decodeHead_threeOfFour (by omega) second (isContinuation_ofNat middle))

end Turnstile.Text
