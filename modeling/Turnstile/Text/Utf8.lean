/-!
# Text in bytes

UTF-8 in both directions.  Reading takes one character or one ill-formed part
from the front; an ill-formed part is as long as it could have started a
character, and at least one byte.  Lenient reading puts one replacement
character in place of each ill-formed part, strict reading accepts none.
-/

namespace Turnstile.Text

abbrev Bytes := List UInt8

/-- What stands in place of bytes that are no text. -/
def replacement : Char := Char.ofNat 0xFFFD

/-- The bytes of one character. -/
def encodeChar (c : Char) : Bytes :=
  let n := c.toNat
  if n < 0x80 then [.ofNat n]
  else if n < 0x800 then [.ofNat (0xC0 + n / 64), .ofNat (0x80 + n % 64)]
  else if n < 0x10000 then
    [.ofNat (0xE0 + n / 4096), .ofNat (0x80 + n / 64 % 64), .ofNat (0x80 + n % 64)]
  else
    [.ofNat (0xF0 + n / 262144), .ofNat (0x80 + n / 4096 % 64), .ofNat (0x80 + n / 64 % 64),
      .ofNat (0x80 + n % 64)]

/-- The bytes of a text. -/
def encode (text : String) : Bytes :=
  text.toList.flatMap encodeChar

/-- A byte that continues a character. -/
def isContinuation (b : UInt8) : Bool :=
  0x80 ≤ b.toNat && b.toNat ≤ 0xBF

/-- The low six bits of a continuation. -/
def payload (b : UInt8) : Nat :=
  b.toNat % 64

/-- Whether `b` may be the second byte of a character of three bytes that starts with `lead`. -/
def isSecondOfThree (lead b : UInt8) : Bool :=
  if lead = 0xE0 then 0xA0 ≤ b.toNat && b.toNat ≤ 0xBF
  else if lead = 0xED then 0x80 ≤ b.toNat && b.toNat ≤ 0x9F
  else isContinuation b

/-- Whether `b` may be the second byte of a character of four bytes that starts with `lead`. -/
def isSecondOfFour (lead b : UInt8) : Bool :=
  if lead = 0xF0 then 0x90 ≤ b.toNat && b.toNat ≤ 0xBF
  else if lead = 0xF4 then 0x80 ≤ b.toNat && b.toNat ≤ 0x8F
  else isContinuation b

/--
The first character of some bytes, or none if they start with an ill-formed part,
and the number of bytes after the first one that belong to it.
-/
def decodeHead (lead : UInt8) (rest : Bytes) : Option Char × Nat :=
  let n := lead.toNat
  if n < 0x80 then (some (Char.ofNat n), 0)
  else if 0xC2 ≤ n ∧ n ≤ 0xDF then
    match rest with
    | b :: _ =>
      if isContinuation b then (some (Char.ofNat (n % 32 * 64 + payload b)), 1) else (none, 0)
    | [] => (none, 0)
  else if 0xE0 ≤ n ∧ n ≤ 0xEF then
    match rest with
    | b :: c :: _ =>
      if isSecondOfThree lead b then
        if isContinuation c then
          (some (Char.ofNat ((n % 16 * 64 + payload b) * 64 + payload c)), 2)
        else (none, 1)
      else (none, 0)
    | [b] => if isSecondOfThree lead b then (none, 1) else (none, 0)
    | [] => (none, 0)
  else if 0xF0 ≤ n ∧ n ≤ 0xF4 then
    match rest with
    | b :: c :: d :: _ =>
      if isSecondOfFour lead b then
        if isContinuation c then
          if isContinuation d then
            (some (Char.ofNat (((n % 8 * 64 + payload b) * 64 + payload c) * 64 + payload d)), 3)
          else (none, 2)
        else (none, 1)
      else (none, 0)
    | [b, c] =>
      if isSecondOfFour lead b then if isContinuation c then (none, 2) else (none, 1)
      else (none, 0)
    | [b] => if isSecondOfFour lead b then (none, 1) else (none, 0)
    | [] => (none, 0)
  else (none, 0)

/-- The characters of some bytes; `none` for each ill-formed part. -/
def decode : Bytes → List (Option Char)
  | [] => []
  | lead :: rest =>
    (decodeHead lead rest).1 :: decode (rest.drop (decodeHead lead rest).2)
termination_by bytes => bytes.length
decreasing_by simp only [List.length_drop, List.length_cons]; omega

/-- The text of some bytes, each ill-formed part replaced. -/
def decodeLossy (bytes : Bytes) : String :=
  String.ofList ((decode bytes).map fun c => c.getD replacement)

/-- The text of some bytes, if all of them are well-formed. -/
def decode? (bytes : Bytes) : Option String :=
  let chars := decode bytes
  if chars.all Option.isSome then some (String.ofList (chars.filterMap id)) else none

end Turnstile.Text
