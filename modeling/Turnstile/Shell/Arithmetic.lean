/-!
# Arithmetic of the shell

Integer expressions with the usual operators, by precedence, over 64-bit words.
A name stands for the number that its variable holds, and for nothing if it is unset.
-/

namespace Turnstile.Shell.Arithmetic

/-- Reads a number or gives up. -/
abbrev Reader := List Char → Option (Int × List Char)

def skip (cs : List Char) : List Char :=
  cs.dropWhile fun c => c == ' ' || c == '\t' || c == '\n'

def digitValue (c : Char) : Nat :=
  if c.isDigit then c.toNat - '0'.toNat else c.toLower.toNat - 'a'.toNat + 10

/-- The number that digits of a base write. -/
def ofDigits (base : Nat) (digits : List Char) : Int :=
  Int.ofNat (digits.foldl (fun n c => n * base + digitValue c) 0)

/-- Reads an unsigned number: decimal, octal after a nought, or hexadecimal. -/
def number (cs : List Char) : Option (Int × List Char) :=
  match cs with
  | '0' :: 'x' :: rest =>
    let isHex := fun (c : Char) => c.isDigit || ('a' ≤ c.toLower && c.toLower ≤ 'f')
    some (ofDigits 16 (rest.takeWhile isHex), rest.dropWhile isHex)
  | '0' :: rest => some (ofDigits 8 (rest.takeWhile Char.isDigit), rest.dropWhile Char.isDigit)
  | _ =>
    let digits := cs.takeWhile Char.isDigit
    if digits.isEmpty then none else some (ofDigits 10 digits, cs.dropWhile Char.isDigit)

/-- The value of a written number with an optional sign. -/
def value (text : String) : Int :=
  match skip text.toList with
  | '-' :: rest => (number rest).elim 0 fun found => -found.1
  | '+' :: rest => (number rest).elim 0 Prod.fst
  | rest => (number rest).elim 0 Prod.fst

/-- A result as a signed 64-bit word. -/
def word (n : Int) : Int :=
  (Int64.ofInt n).toInt

def ofBool (b : Bool) : Int := if b then 1 else 0

/-- Binary operators by rising precedence; of two with a common front the longer stands first. -/
def levels : List (List (String × (Int → Int → Option Int))) :=
  [[("||", fun a b => some (ofBool (a != 0 || b != 0)))],
    [("&&", fun a b => some (ofBool (a != 0 && b != 0)))],
    [("==", fun a b => some (ofBool (a == b))), ("!=", fun a b => some (ofBool (a != b)))],
    [("<=", fun a b => some (ofBool (decide (a ≤ b)))),
      (">=", fun a b => some (ofBool (decide (b ≤ a)))),
      ("<", fun a b => some (ofBool (decide (a < b)))),
      (">", fun a b => some (ofBool (decide (b < a))))],
    [("+", fun a b => some (word (a + b))), ("-", fun a b => some (word (a - b)))],
    [("*", fun a b => some (word (a * b))),
      ("/", fun a b => if b = 0 then none else some (word (a.tdiv b))),
      ("%", fun a b => if b = 0 then none else some (word (a.tmod b)))]]

/-- The operator of a level at the front of a text, and the text after it. -/
def operator? (level : List (String × (Int → Int → Option Int))) (cs : List Char) :
    Option ((Int → Int → Option Int) × List Char) :=
  (level.find? fun item => item.1.toList.isPrefixOf cs).map fun item =>
    (item.2, cs.drop item.1.length)

def isNameChar (c : Char) : Bool := c.isAlphanum || c == '_'

mutual

/-- Reads an expression of the given levels. -/
def expression (get : String → String) : Nat → List (List (String × (Int → Int → Option Int))) → Reader
  | 0, _ => fun _ => none
  | fuel + 1, [] => operand get fuel
  | fuel + 1, level :: higher => fun cs =>
    match expression get fuel higher cs with
    | none => none
    | some (first, rest) => operations get fuel level higher first rest

def operations (get : String → String) :
    Nat → List (String × (Int → Int → Option Int)) →
      List (List (String × (Int → Int → Option Int))) → Int → Reader
  | 0, _, _, _ => fun _ => none
  | fuel + 1, level, higher, first => fun cs =>
    match operator? level (skip cs) with
    | none => some (first, cs)
    | some (apply, rest) =>
      match expression get fuel higher rest with
      | none => none
      | some (second, rest) =>
        match apply first second with
        | none => none
        | some value => operations get fuel level higher value rest

/-- Reads a number, a name, a signed or negated operand, or an expression in brackets. -/
def operand (get : String → String) : Nat → Reader
  | 0 => fun _ => none
  | fuel + 1 => fun cs =>
    match skip cs with
    | '(' :: rest =>
      match expression get fuel levels rest with
      | some (inner, rest) =>
        match skip rest with
        | ')' :: rest => some (inner, rest)
        | _ => none
      | none => none
    | '-' :: rest => (operand get fuel rest).map fun found => (-found.1, found.2)
    | '+' :: rest => operand get fuel rest
    | '!' :: rest => (operand get fuel rest).map fun found => (ofBool (found.1 == 0), found.2)
    | c :: rest =>
      if c.isDigit then number (c :: rest)
      else
        let named := if c = '$' then rest else c :: rest
        let name := named.takeWhile isNameChar
        if name.isEmpty then none
        else some (value (get (String.ofList name)), named.dropWhile isNameChar)
    | [] => none

end

/-- The value of an expression, with `get` telling what variables hold; none if it is malformed. -/
def evaluate (get : String → String) (source : List Char) : Option Int :=
  if (skip source).isEmpty then some 0
  else
    match expression get (8 * source.length + 16) levels source with
    | some (value, rest) => if (skip rest).isEmpty then some value else none
    | none => none

end Turnstile.Shell.Arithmetic
