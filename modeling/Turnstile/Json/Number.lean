import Turnstile.Json.Scan

/-!
# Numbers in JSON text

A number that is kept is read in full and must be an integer that fits in 64
bits; anything else counts as fractional, and one too large even for binary
floating point is malformed.  A number that is skipped needs only the right
form.
-/

namespace Turnstile.Json

/-- A number as written. -/
structure Literal where
  negative : Bool
  whole : List Char
  fraction : List Char
  exponent : Int
  /-- Written with neither fraction nor exponent. -/
  isPlain : Bool
  deriving DecidableEq, Repr

/-- The value of a run of decimal digits. -/
def digitsValue (digits : List Char) : Nat :=
  digits.foldl (fun value d => value * 10 + (d.toNat - '0'.toNat)) 0

/-- Splits off the leading digits. -/
def spanDigits (cs : List Char) : List Char × List Char :=
  (cs.takeWhile Char.isDigit, cs.dropWhile Char.isDigit)

/-- Reads at least one digit. -/
def readDigits : Reader (List Char) := fun cs =>
  match spanDigits cs with
  | ([], []) => .error .cutShort
  | ([], _) => .error .malformed
  | (digits, rest) => .ok (digits, rest)

/-- Reads an exponent whose letter has been read. -/
def readExponent : Reader Int
  | '-' :: rest => (readDigits rest).map fun (digits, rest) => (-(digitsValue digits : Int), rest)
  | '+' :: rest => (readDigits rest).map fun (digits, rest) => ((digitsValue digits : Int), rest)
  | cs => (readDigits cs).map fun (digits, rest) => ((digitsValue digits : Int), rest)

/-- Reads what may follow the whole digits of a number. -/
def readTail (negative : Bool) (whole : List Char) : Reader Literal
  | '.' :: rest =>
    match readDigits rest with
    | .error fault => .error fault
    | .ok (fraction, 'e' :: rest) | .ok (fraction, 'E' :: rest) =>
      (readExponent rest).map fun (exponent, rest) =>
        (⟨negative, whole, fraction, exponent, false⟩, rest)
    | .ok (fraction, rest) => .ok (⟨negative, whole, fraction, 0, false⟩, rest)
  | 'e' :: rest | 'E' :: rest =>
    (readExponent rest).map fun (exponent, rest) => (⟨negative, whole, [], exponent, false⟩, rest)
  | rest => .ok (⟨negative, whole, [], 0, true⟩, rest)

/-- Reads a number whose sign, if any, has been read. -/
def readLiteral (negative : Bool) : Reader Literal
  | [] => .error .cutShort
  | '0' :: rest =>
    if rest.head?.any Char.isDigit then .error .malformed else readTail negative ['0'] rest
  | cs =>
    match spanDigits cs with
    | ([], _) => .error .malformed
    | (whole, rest) => readTail negative whole rest

/-! ## Size -/

/-- The largest 64-bit word. -/
def wordMax : Nat := UInt64.size - 1

/-- Appends digits to a word while it fits in 64 bits; the other digits are left. -/
def appendDigits (word : Nat) : List Char → Nat × List Char
  | [] => (word, [])
  | d :: rest =>
    if word * 10 + (d.toNat - '0'.toNat) ≤ wordMax then
      appendDigits (word * 10 + (d.toNat - '0'.toNat)) rest
    else (word, d :: rest)

/-- The nearest number with 53 significant bits, ties to even. -/
def roundBinary (n : Nat) : Nat :=
  let shift := n.log2 + 1 - 53
  let unit := Nat.pow 2 shift
  let quotient := n / unit
  let remainder := n % unit
  let up := unit < 2 * remainder || (2 * remainder == unit && quotient % 2 == 1 && 0 < shift)
  (if up then quotient + 1 else quotient) * unit

namespace Literal

/-- The first significant digits as a 64-bit word, and the power of ten they are scaled by. -/
def scaled (literal : Literal) : Nat × Int :=
  let (word, left) := appendDigits 0 literal.whole
  let (word', left') := appendDigits word literal.fraction
  (word', (left.length : Int) - ((literal.fraction.length : Int) - left'.length) + literal.exponent)

/-- Whether the number is too large for binary floating point of 64 bits. -/
def overflows (literal : Literal) : Bool :=
  let (word, exponent) := literal.scaled
  word ≠ 0 && 0 ≤ exponent &&
    (308 < exponent ||
      Nat.pow 2 1024 - Nat.pow 2 970 ≤
        roundBinary word * roundBinary (Nat.pow 10 exponent.toNat))

/-- The integer that a number denotes, if it is written as one and fits in 64 bits. -/
def toInt? (literal : Literal) : Option Int :=
  let value := digitsValue literal.whole
  if !literal.isPlain then none
  else if literal.negative then
    if 0 < value ∧ value ≤ Nat.pow 2 63 then some (-(value : Int)) else none
  else if value ≤ wordMax then some value else none

/-- The fault of a number that has been read where it cannot stand, if it has a form at all. -/
def fault (literal : Literal) : Fault :=
  if literal.overflows then .malformed else .mistyped

end Literal

/-! ## Skipping -/

/-- Skips at least one digit. -/
def skipDigits (cs : List Char) : Except Fault (List Char) :=
  if cs.head?.any Char.isDigit then .ok (cs.dropWhile Char.isDigit) else .error .malformed

/-- Skips an exponent whose letter has been read. -/
def skipExponent : List Char → Except Fault (List Char)
  | '-' :: rest | '+' :: rest => skipDigits rest
  | cs => skipDigits cs

/-- Skips what may follow the whole digits of a number. -/
def skipTail : List Char → Except Fault (List Char)
  | '.' :: rest =>
    match skipDigits rest with
    | .error fault => .error fault
    | .ok ('e' :: rest) | .ok ('E' :: rest) => skipExponent rest
    | .ok rest => .ok rest
  | 'e' :: rest | 'E' :: rest => skipExponent rest
  | rest => .ok rest

/-- Skips a number whose sign, if any, has been read; it may not end early. -/
def skipNumber : List Char → Except Fault (List Char)
  | '0' :: rest => if rest.head?.any Char.isDigit then .error .malformed else skipTail rest
  | cs =>
    match skipDigits cs with
    | .error fault => .error fault
    | .ok rest => skipTail rest

theorem length_lt_of_skipDigits {cs rest : List Char} (read : skipDigits cs = .ok rest) :
    rest.length < cs.length := by
  unfold skipDigits at read
  split at read
  · rename_i digit
    simp only [Except.ok.injEq] at read
    subst read
    cases cs with
    | nil => simp at digit
    | cons c tail =>
      simp only [List.head?_cons, Option.any_some] at digit
      have : (tail.dropWhile Char.isDigit).length ≤ tail.length :=
        List.Sublist.length_le (List.dropWhile_sublist _)
      simp only [List.dropWhile_cons, digit, if_true, List.length_cons]
      omega
  · simp at read

theorem length_lt_of_skipExponent {cs rest : List Char} (read : skipExponent cs = .ok rest) :
    rest.length < cs.length := by
  unfold skipExponent at read
  split at read
  · have := length_lt_of_skipDigits read
    simp only [List.length_cons]
    omega
  · have := length_lt_of_skipDigits read
    simp only [List.length_cons]
    omega
  · exact length_lt_of_skipDigits read

theorem length_le_of_skipTail {cs rest : List Char} (read : skipTail cs = .ok rest) :
    rest.length ≤ cs.length := by
  unfold skipTail at read
  split at read
  · split at read
    · simp at read
    · rename_i digits
      have := length_lt_of_skipDigits digits
      have := length_lt_of_skipExponent read
      simp only [List.length_cons] at *
      omega
    · rename_i digits
      have := length_lt_of_skipDigits digits
      have := length_lt_of_skipExponent read
      simp only [List.length_cons] at *
      omega
    · rename_i digits
      have := length_lt_of_skipDigits digits
      simp only [Except.ok.injEq] at read
      subst read
      simp only [List.length_cons]
      omega
  · have := length_lt_of_skipExponent read
    simp only [List.length_cons]
    omega
  · have := length_lt_of_skipExponent read
    simp only [List.length_cons]
    omega
  · simp_all

theorem length_lt_of_skipNumber {cs rest : List Char} (read : skipNumber cs = .ok rest) :
    rest.length < cs.length := by
  unfold skipNumber at read
  split at read
  · split at read
    · simp at read
    · have := length_le_of_skipTail read
      simp only [List.length_cons]
      omega
  · split at read
    · simp at read
    · rename_i digits
      have := length_lt_of_skipDigits digits
      have := length_le_of_skipTail read
      omega

end Turnstile.Json
