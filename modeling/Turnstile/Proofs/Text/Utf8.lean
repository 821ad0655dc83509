import Turnstile.Text.Utf8

/-!
# Characters and their bytes

A character below 128 is read off its own byte and no other, so that lenient
reading makes none: a line feed of the text was a line feed of the bytes.  The
bytes of a text are read as this text.
-/

namespace Turnstile.Text

theorem toNat_ofNat_of_isValidChar {n : Nat} (valid : n.isValidChar) :
    (Char.ofNat n).toNat = n := by
  rw [Char.ofNat, dif_pos valid]
  rfl

variable {lead b : UInt8} {rest : Bytes}

theorem toNat_of_isContinuation (continues : isContinuation b = true) :
    0x80 ≤ b.toNat ∧ b.toNat ≤ 0xBF := by
  simpa [isContinuation] using continues

theorem toNat_of_isSecondOfThree (second : isSecondOfThree lead b = true) :
    0x80 ≤ b.toNat ∧ b.toNat ≤ 0xBF ∧ (lead.toNat = 0xE0 → 0xA0 ≤ b.toNat) ∧
      (lead.toNat = 0xED → b.toNat ≤ 0x9F) := by
  simp only [isSecondOfThree, isContinuation, ← UInt8.toNat_inj, UInt8.reduceToNat] at second
  split at second
  · simp at second
    omega
  · split at second <;> simp at second <;> omega

theorem toNat_of_isSecondOfFour (second : isSecondOfFour lead b = true) :
    0x80 ≤ b.toNat ∧ b.toNat ≤ 0xBF ∧ (lead.toNat = 0xF0 → 0x90 ≤ b.toNat) ∧
      (lead.toNat = 0xF4 → b.toNat ≤ 0x8F) := by
  simp only [isSecondOfFour, isContinuation, ← UInt8.toNat_inj, UInt8.reduceToNat] at second
  split at second
  · simp at second
    omega
  · split at second <;> simp at second <;> omega

/-- A character of more than one byte is not below 128. -/
theorem toNat_of_decodeHead {c : Char} (head : (decodeHead lead rest).1 = some c) :
    c.toNat = lead.toNat ∨ 0x80 ≤ c.toNat := by
  have valid (n : Nat) (scalar : n < 0xD800 ∨ 0xDFFF < n ∧ n < 0x110000) :
      (Char.ofNat n).toNat = n := toNat_ofNat_of_isValidChar scalar
  unfold decodeHead payload at head
  dsimp only at head
  split at head
  case isTrue one =>
    cases head
    exact .inl (valid _ (by omega))
  right
  split at head
  case isTrue two =>
    split at head
    · split at head
      · rename_i first
        have first := toNat_of_isContinuation first
        cases head
        rw [valid _ (by omega)]
        omega
      · cases head
    · cases head
  split at head
  case isTrue three =>
    split at head
    · split at head
      · split at head
        · rename_i second third
          have second := toNat_of_isSecondOfThree second
          have third := toNat_of_isContinuation third
          cases head
          rw [valid _ (by omega)]
          omega
        · cases head
      · cases head
    · split at head <;> cases head
    · cases head
  split at head
  case isTrue four =>
    split at head
    · split at head
      · split at head
        · split at head
          · rename_i second third fourth
            have second := toNat_of_isSecondOfFour second
            have third := toNat_of_isContinuation third
            have fourth := toNat_of_isContinuation fourth
            cases head
            rw [valid _ (by omega)]
            omega
          · cases head
        · cases head
      · cases head
    · split at head
      · split at head <;> cases head
      · cases head
    · split at head <;> cases head
    · cases head
  cases head

/-- A character below 128 of a decoded text stands for its own byte. -/
theorem ofNat_mem_of_mem_decode {bytes : Bytes} {c : Char} (small : c.toNat < 0x80)
    (member : some c ∈ decode bytes) : UInt8.ofNat c.toNat ∈ bytes := by
  induction bytes using decode.induct with
  | case1 => simp [decode] at member
  | case2 lead rest ih =>
      rw [decode] at member
      rcases List.mem_cons.mp member with head | later
      · have same : c.toNat = lead.toNat :=
          (toNat_of_decodeHead head.symm).resolve_right (Nat.not_le.mpr small)
        rw [same, UInt8.ofNat_toNat]
        exact List.mem_cons_self
      · exact List.mem_cons_of_mem _ (List.mem_of_mem_drop (ih later))

/-- Lenient reading makes no character below 128. -/
theorem ofNat_mem_of_mem_decodeLossy {bytes : Bytes} {c : Char} (small : c.toNat < 0x80)
    (member : c ∈ (decodeLossy bytes).toList) : UInt8.ofNat c.toNat ∈ bytes := by
  rw [decodeLossy, String.toList_ofList, List.mem_map] at member
  obtain ⟨decoded, member, same⟩ := member
  cases decoded with
  | none =>
      subst same
      exact absurd small (by decide)
  | some other =>
      cases same
      exact ofNat_mem_of_mem_decode small member

/-! ## The bytes of a text are the text's again -/

theorem isContinuation_ofNat {n : Nat} (small : n < 64) :
    isContinuation (.ofNat (0x80 + n)) = true := by
  simp only [isContinuation, UInt8.toNat_ofNat', Bool.and_eq_true, decide_eq_true_eq]
  omega

theorem payload_ofNat {n : Nat} (small : n < 64) : payload (.ofNat (0x80 + n)) = n := by
  simp only [payload, UInt8.toNat_ofNat']
  omega

theorem isSecondOfThree_ofNat {n : Nat} (above : 0x800 ≤ n) (below : n < 0x10000)
    (valid : n < 0xD800 ∨ 0xDFFF < n) :
    isSecondOfThree (.ofNat (0xE0 + n / 4096)) (.ofNat (0x80 + n / 64 % 64)) = true := by
  simp only [isSecondOfThree, isContinuation, ← UInt8.toNat_inj, UInt8.toNat_ofNat',
    UInt8.reduceToNat]
  split
  · simp only [Bool.and_eq_true, decide_eq_true_eq]
    omega
  · split
    · simp only [Bool.and_eq_true, decide_eq_true_eq]
      omega
    · simp only [Bool.and_eq_true, decide_eq_true_eq]
      omega

theorem isSecondOfFour_ofNat {n : Nat} (above : 0x10000 ≤ n) (below : n < 0x110000) :
    isSecondOfFour (.ofNat (0xF0 + n / 262144)) (.ofNat (0x80 + n / 4096 % 64)) = true := by
  simp only [isSecondOfFour, isContinuation, ← UInt8.toNat_inj, UInt8.toNat_ofNat',
    UInt8.reduceToNat]
  split
  · simp only [Bool.and_eq_true, decide_eq_true_eq]
    omega
  · split
    · simp only [Bool.and_eq_true, decide_eq_true_eq]
      omega
    · simp only [Bool.and_eq_true, decide_eq_true_eq]
      omega

section WellFormed

variable {third fourth : UInt8}

theorem decodeHead_two (first : 0xC2 ≤ lead.toNat ∧ lead.toNat ≤ 0xDF)
    (second : isContinuation b = true) :
    decodeHead lead (b :: rest) =
      (some (Char.ofNat (lead.toNat % 32 * 64 + payload b)), 1) := by
  rw [decodeHead, if_neg (by omega), if_pos first]
  simp only [second, if_true]

theorem decodeHead_three (first : 0xE0 ≤ lead.toNat ∧ lead.toNat ≤ 0xEF)
    (second : isSecondOfThree lead b = true) (last : isContinuation third = true) :
    decodeHead lead (b :: third :: rest) =
      (some (Char.ofNat ((lead.toNat % 16 * 64 + payload b) * 64 + payload third)), 2) := by
  rw [decodeHead, if_neg (by omega), if_neg (by omega), if_pos first]
  simp only [second, last, if_true]

theorem decodeHead_four (first : 0xF0 ≤ lead.toNat ∧ lead.toNat ≤ 0xF4)
    (second : isSecondOfFour lead b = true) (middle : isContinuation third = true)
    (last : isContinuation fourth = true) :
    decodeHead lead (b :: third :: fourth :: rest) =
      (some (Char.ofNat
        (((lead.toNat % 8 * 64 + payload b) * 64 + payload third) * 64 + payload fourth)), 3) := by
  rw [decodeHead, if_neg (by omega), if_neg (by omega), if_neg (by omega), if_pos first]
  simp only [second, middle, last, if_true]

end WellFormed

/-- The bytes of a character are read as this character, whatever comes after them. -/
theorem decodeHead_encodeChar (c : Char) (rest : Bytes) :
    ∃ lead tail, encodeChar c = lead :: tail ∧
      decodeHead lead (tail ++ rest) = (some c, tail.length) := by
  have valid : c.toNat < 0xD800 ∨ 0xDFFF < c.toNat ∧ c.toNat < 0x110000 := c.valid
  have same (n : Nat) (equal : n = c.toNat) : Char.ofNat n = c := by
    rw [equal, Char.ofNat_toNat]
  have byte (n : Nat) (small : n < 0x100) : (UInt8.ofNat n).toNat = n :=
    UInt8.toNat_ofNat_of_lt small
  have last : c.toNat % 64 < 64 := by omega
  have middle : c.toNat / 64 % 64 < 64 := by omega
  have high : c.toNat / 4096 % 64 < 64 := by omega
  unfold encodeChar
  dsimp only
  split
  · refine ⟨_, _, rfl, ?_⟩
    have lead := byte c.toNat (by omega)
    simp only [decodeHead, lead, if_pos ‹c.toNat < 0x80›, Char.ofNat_toNat, List.length_nil]
  split
  · refine ⟨_, _, rfl, ?_⟩
    have lead := byte (0xC0 + c.toNat / 64) (by omega)
    rw [List.singleton_append, decodeHead_two (by omega) (isContinuation_ofNat last), lead,
      payload_ofNat last, same _ (by omega), List.length_singleton]
  split
  · refine ⟨_, _, rfl, ?_⟩
    have lead := byte (0xE0 + c.toNat / 4096) (by omega)
    have second := isSecondOfThree_ofNat (n := c.toNat) (by omega) (by omega) (by omega)
    rw [List.cons_append, List.singleton_append,
      decodeHead_three (by omega) second (isContinuation_ofNat last), lead, payload_ofNat last,
      payload_ofNat middle, same _ (by omega)]
    rfl
  · refine ⟨_, _, rfl, ?_⟩
    have lead := byte (0xF0 + c.toNat / 262144) (by omega)
    have second := isSecondOfFour_ofNat (n := c.toNat) (by omega) (by omega)
    rw [List.cons_append, List.cons_append, List.singleton_append,
      decodeHead_four (by omega) second (isContinuation_ofNat middle) (isContinuation_ofNat last),
      lead, payload_ofNat last, payload_ofNat middle, payload_ofNat high, same _ (by omega)]
    rfl

/-- Characters in front are read as these characters, whatever comes after them. -/
theorem decode_append (cs : List Char) (rest : Bytes) :
    decode (cs.flatMap encodeChar ++ rest) = cs.map some ++ decode rest := by
  induction cs with
  | nil => rfl
  | cons c cs ih =>
      obtain ⟨lead, tail, bytes, head⟩ := decodeHead_encodeChar c (cs.flatMap encodeChar ++ rest)
      rw [List.flatMap_cons, List.append_assoc, bytes, List.cons_append, decode, head,
        List.drop_left, ih, List.map_cons, List.cons_append]

theorem decode_encode (cs : List Char) : decode (cs.flatMap encodeChar) = cs.map some := by
  have all := decode_append cs []
  rwa [List.append_nil, decode, List.append_nil] at all

/-- A text is what its bytes say. -/
theorem decode?_encode (text : String) : decode? (encode text) = some text := by
  simp [decode?, encode, decode_encode, List.filterMap_map]

end Turnstile.Text
