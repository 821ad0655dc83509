/-!
# JSON values and their text

Trees of JSON values, and their text on one line or spread over indented lines.
-/

namespace Turnstile.Json

/-- A JSON value.  Numbers are kept as written; members keep their order. -/
inductive Value where
  | null
  | bool (value : Bool)
  | number (literal : String)
  | text (value : String)
  | list (items : List Value)
  | object (members : List (String × Value))

namespace Value

def ofInt (value : Int) : Value := .number (toString value)

def ofNat (value : Nat) : Value := .number (toString value)

def ofOption {α : Type} (encode : α → Value) : Option α → Value
  | none => .null
  | some value => encode value

end Value

/-- The digit of a number below sixteen, letters in lower case. -/
def hexDigit (n : Nat) : Char :=
  if n < 10 then Char.ofNat ('0'.toNat + n) else Char.ofNat ('a'.toNat + (n - 10))

/-- The characters that write `c` inside a string. -/
def escapeChar (c : Char) : List Char :=
  if c = '"' then ['\\', '"']
  else if c = '\\' then ['\\', '\\']
  else if c = '\n' then ['\\', 'n']
  else if c = '\r' then ['\\', 'r']
  else if c = '\t' then ['\\', 't']
  else if c = '\x08' then ['\\', 'b']
  else if c = '\x0c' then ['\\', 'f']
  else if c.toNat < 0x20 then
    ['\\', 'u', '0', '0', hexDigit (c.toNat / 16), hexDigit (c.toNat % 16)]
  else [c]

/-- A string in quotes. -/
def quote (text : String) : List Char :=
  '"' :: text.toList.flatMap escapeChar ++ ['"']

/-- Joins texts with a separator between neighbours. -/
def joinWith (separator : List Char) : List (List Char) → List Char
  | [] => []
  | [text] => text
  | text :: rest => text ++ separator ++ joinWith separator rest

mutual

/-- The text of a value on one line, without blanks. -/
def compact : Value → List Char
  | .null => ['n', 'u', 'l', 'l']
  | .bool true => ['t', 'r', 'u', 'e']
  | .bool false => ['f', 'a', 'l', 's', 'e']
  | .number literal => literal.toList
  | .text text => quote text
  | .list items => '[' :: joinWith [','] (compactItems items) ++ [']']
  | .object members => '{' :: joinWith [','] (compactMembers members) ++ ['}']

def compactItems : List Value → List (List Char)
  | [] => []
  | item :: rest => compact item :: compactItems rest

def compactMembers : List (String × Value) → List (List Char)
  | [] => []
  | (name, value) :: rest => (quote name ++ ':' :: compact value) :: compactMembers rest

end

/-- A new line and two blanks for each of the brackets around it. -/
def newLine (depth : Nat) : List Char :=
  '\n' :: List.replicate (2 * depth) ' '

/-- Items of a bracket on lines of their own. -/
def bracket (opener closer : Char) (depth : Nat) (items : List (List Char)) : List Char :=
  if items.isEmpty then [opener, closer]
  else
    opener :: newLine (depth + 1) ++ joinWith (',' :: newLine (depth + 1)) items ++
      newLine depth ++ [closer]

mutual

/-- The text of a value spread over indented lines. -/
def pretty (depth : Nat) : Value → List Char
  | .list items => bracket '[' ']' depth (prettyItems (depth + 1) items)
  | .object members => bracket '{' '}' depth (prettyMembers (depth + 1) members)
  | .null => ['n', 'u', 'l', 'l']
  | .bool true => ['t', 'r', 'u', 'e']
  | .bool false => ['f', 'a', 'l', 's', 'e']
  | .number literal => literal.toList
  | .text text => quote text

def prettyItems (depth : Nat) : List Value → List (List Char)
  | [] => []
  | item :: rest => pretty depth item :: prettyItems depth rest

def prettyMembers (depth : Nat) : List (String × Value) → List (List Char)
  | [] => []
  | (name, value) :: rest =>
    (quote name ++ ':' :: ' ' :: pretty depth value) :: prettyMembers depth rest

end

end Turnstile.Json
