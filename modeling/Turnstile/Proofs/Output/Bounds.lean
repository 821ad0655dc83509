import Mathlib.Data.List.Forall2
import Turnstile.Proofs.Output.Reading
import Turnstile.Proofs.Text.Size

/-!
# How long a line is

A line is cut by its bytes and passed on as text.  The text is at most three times
as long as the limit, whatever the bytes are.  Bytes that are text are cut in text
too: the characters that fit are passed on, and one replacement stands for a
character that does not fit as a whole.
-/

namespace Turnstile.Output

open Text (Bytes encode encodeChar)

variable {cap : Nat} {stream : Bytes} {texts : List String}

/-- A text without one carriage return at its end. -/
def withoutReturn (text : String) : String :=
  if text.toList.getLast? = some '\r' then String.ofList text.toList.dropLast else text

/-- What is passed on of a line that is text. -/
inductive Shows (cap : Nat) : String → String → Prop where
  /-- The line fits. -/
  | whole {line : String} (fits : line.utf8ByteSize ≤ cap) : Shows cap line (withoutReturn line)
  /-- The line is cut between two characters. -/
  | between {before after : String} (edge : before.utf8ByteSize = cap) (more : after ≠ "") :
      Shows cap (before ++ after) (withoutReturn before)
  /-- The line is cut inside a character. -/
  | inside {before after : String} {c : Char} (starts : before.utf8ByteSize < cap)
      (ends : cap < before.utf8ByteSize + c.utf8Size) :
      Shows cap (before ++ String.singleton c ++ after)
        (before ++ String.singleton Text.replacement)

/-! ## Returns -/

theorem withoutReturn_append_singleton (before : String) (c : Char) :
    withoutReturn (before ++ String.singleton c) =
      if c = '\r' then before else before ++ String.singleton c := by
  simp [withoutReturn]

/-- A text is empty, or has a last character. -/
theorem eq_empty_or_append_singleton (text : String) :
    text = "" ∨ ∃ (before : String) (c : Char), text = before ++ String.singleton c := by
  rcases List.eq_nil_or_concat text.toList with none | ⟨before, c, chars⟩
  · exact .inl (String.toList_eq_nil_iff.mp none)
  · refine .inr ⟨String.ofList before, c, String.toList_inj.mp ?_⟩
    simp [chars]

theorem utf8ByteSize_withoutReturn_le (text : String) :
    (withoutReturn text).utf8ByteSize ≤ text.utf8ByteSize := by
  rcases eq_empty_or_append_singleton text with rfl | ⟨before, c, rfl⟩
  · exact Nat.le_refl 0
  · rw [withoutReturn_append_singleton]
    split
    · rw [String.utf8ByteSize_append]
      exact Nat.le_add_right _ _
    · exact Nat.le_refl _

theorem eq_of_carriageReturn_mem {c : Char} (member : carriageReturn ∈ encodeChar c) : c = '\r' :=
  Text.eq_of_mem_encodeChar member (by decide)

theorem dropReturn_append {part : Bytes} (before : Bytes) (full : part ≠ [])
    (clear : carriageReturn ∉ part) : dropReturn (before ++ part) = before ++ part := by
  unfold dropReturn
  split
  · rename_i last
    rw [List.getLast?_append_of_ne_nil before full] at last
    exact absurd (List.mem_of_getLast? last) clear
  · rfl

/-- A return at the end of a text is one at the end of its bytes. -/
theorem dropReturn_encode (text : String) :
    dropReturn (encode text) = encode (withoutReturn text) := by
  rcases eq_empty_or_append_singleton text with rfl | ⟨before, c, rfl⟩
  · rfl
  · rw [withoutReturn_append_singleton, Text.encode_append, Text.encode_singleton]
    split
    · rename_i same
      have one : encodeChar '\r' = [carriageReturn] := by decide
      simp [same, one, dropReturn]
    · rename_i other
      have full : encodeChar c ≠ [] := by
        rw [← List.length_pos_iff, Text.length_encodeChar]
        exact Char.utf8Size_pos c
      rw [dropReturn_append _ full (mt eq_of_carriageReturn_mem other), Text.encode_append,
        Text.encode_singleton]

/-! ## Lines that are text -/

/-- A line that is text is cut where `cap` bytes of it end. -/
theorem shows_lineText (cap : Nat) (line : String) :
    Shows cap line (lineText cap (encode line)) := by
  rcases Text.cut_cases line cap with
    fits | ⟨before, after, rfl, edge, more⟩ | ⟨before, c, after, rfl, starts, ends⟩
  · rw [lineText, List.take_of_length_le (Text.length_encode line ▸ fits), dropReturn_encode,
      Text.decodeLossy_encode]
    exact .whole fits
  · have kept : (encode (before ++ after)).take cap = encode before := by
      rw [Text.encode_append, ← edge, ← Text.length_encode, List.take_left]
    rw [lineText, kept, dropReturn_encode, Text.decodeLossy_encode]
    exact .between edge more
  -- What is kept of the character that was cut is one ill-formed part, and holds no return.
  · obtain ⟨count, rfl⟩ := Nat.exists_eq_add_of_lt starts
    have cut : count + 1 < c.utf8Size := by omega
    have kept : (encode (before ++ String.singleton c ++ after)).take
        (before.utf8ByteSize + count + 1) = encode before ++ (encodeChar c).take (count + 1) := by
      rw [Text.encode_append, Text.encode_append, Text.encode_singleton, List.append_assoc,
        ← Text.length_encode, Nat.add_assoc, List.take_length_add_append,
        List.take_append_of_le_length (Text.length_encodeChar c ▸ Nat.le_of_lt cut)]
    have full : (encodeChar c).take (count + 1) ≠ [] := by
      rw [← List.length_pos_iff, List.length_take, Text.length_encodeChar]
      omega
    have clear : carriageReturn ∉ (encodeChar c).take (count + 1) := by
      intro member
      have same := eq_of_carriageReturn_mem (List.mem_of_mem_take member)
      have one : '\r'.utf8Size = 1 := by decide
      rw [same, one] at cut
      omega
    rw [lineText, kept, dropReturn_append _ full clear, Text.decodeLossy_append,
      Text.decodeLossy_take_encodeChar (Nat.succ_pos count) cut]
    exact .inside starts ends

theorem Shows.utf8ByteSize_le {line shown : String} (shows : Shows cap line shown) :
    shown.utf8ByteSize ≤ cap + 2 := by
  cases shows with
  | whole fits =>
      have shorter := utf8ByteSize_withoutReturn_le line
      omega
  | @between before after edge more =>
      have shorter := utf8ByteSize_withoutReturn_le before
      omega
  | inside starts =>
      have three : Text.replacement.utf8Size = 3 := by decide
      rw [String.utf8ByteSize_append, String.utf8ByteSize_singleton]
      omega

/-- The pieces of a text are texts. -/
theorem exists_pieces_encode (cs : List Char) :
    ∃ originals : List String, pieces (cs.flatMap encodeChar) = originals.map encode := by
  -- No other character has the byte of a line feed, so that the bytes break where the text does.
  have clear_of {line : List Char} (clear : '\n' ∉ line) :
      lineFeed ∉ line.flatMap encodeChar := by
    rw [← Text.encode_ofList]
    intro member
    have inside := Text.mem_of_mem_encode member (by decide)
    rw [String.toList_ofList] at inside
    exact clear inside
  by_cases broken : '\n' ∈ cs
  · obtain ⟨line, rest, same, clear⟩ := List.eq_append_cons_of_mem broken
    have shorter : rest.length < cs.length := by
      rw [same, List.length_append, List.length_cons]
      omega
    obtain ⟨originals, later⟩ := exists_pieces_encode rest
    have one : encodeChar '\n' = [lineFeed] := by decide
    refine ⟨String.ofList line :: originals, ?_⟩
    rw [same, List.flatMap_append, List.flatMap_cons, one, List.singleton_append,
      pieces_line (clear_of clear), later, List.map_cons, Text.encode_ofList]
  · by_cases empty : cs.flatMap encodeChar = []
    · exact ⟨[], by rw [empty, pieces_nil, List.map_nil]⟩
    · refine ⟨[String.ofList cs], ?_⟩
      rw [pieces_of_startsWith (.last (clear_of broken) empty), pieces_nil, List.map_singleton,
        Text.encode_ofList]
termination_by cs.length
decreasing_by exact shorter

/-! ## The lines of a stream -/

theorem utf8ByteSize_lineText_le (cap : Nat) (piece : Bytes) :
    (lineText cap piece).utf8ByteSize ≤ 3 * cap := by
  have kept : (dropReturn (piece.take cap)).length ≤ cap :=
    Nat.le_trans (dropReturn_sublist _).length_le (List.length_take_le cap piece)
  exact Nat.le_trans (Text.utf8ByteSize_decodeLossy_le _) (Nat.mul_le_mul_left 3 kept)

/-- Some first lines of a stream, each cut at `cap` bytes. -/
structure CutTo (cap : Nat) (stream : Bytes) (texts : List String) : Prop where
  size : ∀ text ∈ texts, text.utf8ByteSize ≤ 3 * cap
  size_of_valid : stream.toByteArray.IsValidUTF8 → ∀ text ∈ texts, text.utf8ByteSize ≤ cap + 2
  shows_of_valid : stream.toByteArray.IsValidUTF8 →
    ∃ originals : List String, originals.map encode <+: pieces stream ∧
      List.Forall₂ (Shows cap) originals texts

theorem cutTo_of_isPrefix (begins : texts <+: lines cap stream) : CutTo cap stream texts := by
  obtain ⟨first, begun, rfl⟩ := List.prefix_map_iff.mp begins
  have originals_of_valid (valid : stream.toByteArray.IsValidUTF8) :
      ∃ originals : List String, first = originals.map encode := by
    obtain ⟨text, rfl⟩ := Text.isValidUTF8_iff.mp valid
    obtain ⟨all, parts⟩ := exists_pieces_encode text.toList
    rw [encode, parts] at begun
    obtain ⟨originals, _, same⟩ := List.prefix_map_iff.mp begun
    exact ⟨originals, same⟩
  constructor
  case size =>
    intro text member
    obtain ⟨piece, _, rfl⟩ := List.mem_map.mp member
    exact utf8ByteSize_lineText_le cap piece
  case size_of_valid =>
    intro valid text member
    obtain ⟨originals, rfl⟩ := originals_of_valid valid
    rw [List.map_map] at member
    obtain ⟨original, _, rfl⟩ := List.mem_map.mp member
    exact (shows_lineText cap original).utf8ByteSize_le
  case shows_of_valid =>
    intro valid
    obtain ⟨originals, rfl⟩ := originals_of_valid valid
    refine ⟨originals, begun, ?_⟩
    rw [List.map_map, List.forall₂_map_right_iff, List.forall₂_same]
    exact fun original _ => shows_lineText cap original

end Turnstile.Output
