import Turnstile.Shell.Arithmetic
import Turnstile.Text.Utf8

/-!
# Formatted output of the shell

Escapes with a backslash, and formats with conversions that are filled from
arguments and used again while arguments are left.
-/

namespace Turnstile.Shell

open Text (Bytes)

def isOctal (c : Char) : Bool :=
  '0' ≤ c && c ≤ '7'

/-- The byte that a backslash and a letter stand for. -/
def escaped? (c : Char) : Option UInt8 :=
  match c with
  | 'a' => some 7
  | 'b' => some 8
  | 'f' => some 12
  | 'n' => some 10
  | 'r' => some 13
  | 't' => some 9
  | 'v' => some 11
  | '\\' => some 92
  | _ => none

/-- The byte that octal digits write. -/
def octalByte (digits : List Char) : UInt8 :=
  .ofNat (Arithmetic.ofDigits 8 digits).toNat

/-- The bytes of a text with escapes, and whether an escape ended the output. -/
def unescape (leadingZero : Bool) : Nat → List Char → Bytes × Bool
  | 0, _ => ([], false)
  | _, [] => ([], false)
  | fuel + 1, '\\' :: c :: rest =>
    let continued := fun (bytes : Bytes) (rest : List Char) =>
      let tail := unescape leadingZero fuel rest
      (bytes ++ tail.1, tail.2)
    match escaped? c with
    | some byte => continued [byte] rest
    | none =>
      if c = 'c' then ([], true)
      else if leadingZero && c == '0' then
        let digits := (rest.take 3).takeWhile isOctal
        continued [octalByte digits] (rest.drop digits.length)
      else if !leadingZero && isOctal c then
        let digits := ((c :: rest).take 3).takeWhile isOctal
        continued [octalByte digits] ((c :: rest).drop digits.length)
      else continued (92 :: Text.encodeChar c) rest
  | fuel + 1, c :: rest =>
    let tail := unescape leadingZero fuel rest
    (Text.encodeChar c ++ tail.1, tail.2)

/-- What `echo` writes. -/
def echo (arguments : List String) : Bytes :=
  let (newLine, arguments) := match arguments with
    | "-n" :: rest => (false, rest)
    | _ => (true, arguments)
  let text := (" ".intercalate arguments).toList
  let (bytes, ended) := unescape true (text.length + 1) text
  bytes ++ (if newLine && !ended then [10] else [])

/-- A text filled with blanks or noughts to a width. -/
def pad (left zero : Bool) (width : Nat) (text : List Char) : List Char :=
  let missing := width - text.length
  if left then text ++ List.replicate missing ' '
  else if zero then
    match text with
    | '-' :: digits => '-' :: List.replicate missing '0' ++ digits
    | _ => List.replicate missing '0' ++ text
  else List.replicate missing ' ' ++ text

/-- The digits of a number in a base, letters in lower case. -/
def digitsIn (base n : Nat) : List Char :=
  Nat.toDigits base n

/-- What one conversion writes for an argument. -/
def convert (left zero : Bool) (width : Nat) (conversion : Char) (argument : String) : Bytes :=
  let padded := fun (text : List Char) => Text.encode (String.ofList (pad left zero width text))
  let number := Arithmetic.value argument
  match conversion with
  | 's' => padded argument.toList
  | 'b' => (unescape true (argument.length + 1) argument.toList).1
  | 'c' => padded (argument.toList.take 1)
  | 'x' => padded (digitsIn 16 number.toNat)
  | 'X' => padded ((digitsIn 16 number.toNat).map Char.toUpper)
  | 'o' => padded (digitsIn 8 number.toNat)
  | _ => padded (toString number).toList

/-- Fills a format once; returns what it writes, and the arguments left. -/
def formatOnce : Nat → List Char → List String → Bytes × List String
  | 0, _, arguments => ([], arguments)
  | _, [], arguments => ([], arguments)
  | fuel + 1, '%' :: '%' :: rest, arguments =>
    let tail := formatOnce fuel rest arguments
    (37 :: tail.1, tail.2)
  | fuel + 1, '%' :: rest, arguments =>
    let flags := rest.takeWhile fun c => c == '-' || c == '0' || c == '+' || c == ' '
    let rest := rest.drop flags.length
    let digits := rest.takeWhile Char.isDigit
    match rest.drop digits.length with
    | [] => ([37], arguments)
    | conversion :: rest =>
      let width := (Arithmetic.ofDigits 10 digits).toNat
      let bytes := convert (flags.contains '-') (flags.contains '0') width conversion
        (arguments.headD "")
      let tail := formatOnce fuel rest (arguments.drop 1)
      (bytes ++ tail.1, tail.2)
  | fuel + 1, cs, arguments =>
    match cs with
    | '\\' :: _ =>
      let count := match cs with
        | _ :: c :: rest =>
          if isOctal c then 1 + (((c :: rest).take 3).takeWhile isOctal).length else 2
        | _ => 1
      let bytes := (unescape false (count + 1) (cs.take count)).1
      let tail := formatOnce fuel (cs.drop count) arguments
      (bytes ++ tail.1, tail.2)
    | c :: rest =>
      let tail := formatOnce fuel rest arguments
      (Text.encodeChar c ++ tail.1, tail.2)
    | [] => ([], arguments)

/-- What `printf` writes: the format is used until no arguments are left. -/
def printf (format : String) : Nat → List String → Bytes
  | 0, _ => []
  | fuel + 1, arguments =>
    let cs := format.toList
    let (bytes, left) := formatOnce (cs.length + 1) cs arguments
    if left.isEmpty || left.length = arguments.length then bytes
    else bytes ++ printf format fuel left

end Turnstile.Shell
