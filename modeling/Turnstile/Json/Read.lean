import Turnstile.Json.Skip

/-!
# Reading typed values

Readers for the values a format asks for.  A text is read front to back and its
first problem decides.  A record may be written as an object, whose unknown
members are skipped, or as a list of its fields in order.
-/

namespace Turnstile.Json

/-- Replaces what a reader has read. -/
def mapRead {α β : Type} (f : α → β) :
    Except Fault (α × List Char) → Except Fault (β × List Char)
  | .error fault => .error fault
  | .ok (value, rest) => .ok (f value, rest)

/-- The fault of a text that is fine as far as it goes, but whose value is not the one wanted. -/
def faultAfter {α : Type} : Except Fault α → Fault
  | .error fault => fault
  | .ok _ => .mistyped

/-- The fault of a number that is read where none may stand. -/
def literalFault : Except Fault (Literal × List Char) → Fault
  | .error fault => fault
  | .ok (literal, _) => literal.fault

/-- The fault of a text that starts, after blanks, with a value of another type than wanted. -/
def wrongType : List Char → Fault
  | [] => .cutShort
  | 'n' :: rest => faultAfter (expect ['u', 'l', 'l'] rest)
  | 't' :: rest => faultAfter (expect ['r', 'u', 'e'] rest)
  | 'f' :: rest => faultAfter (expect ['a', 'l', 's', 'e'] rest)
  | '-' :: rest => literalFault (readLiteral true rest)
  | '"' :: rest => faultAfter (readString rest)
  | '[' :: _ => .mistyped
  | '{' :: _ => .mistyped
  | cs => if cs.head?.any Char.isDigit then literalFault (readLiteral false cs) else .malformed

/-! ## Scalars -/

def readBool : Reader Bool := fun cs =>
  match skipSpace cs with
  | 't' :: rest => (expect ['r', 'u', 'e'] rest).map fun rest => (true, rest)
  | 'f' :: rest => (expect ['a', 'l', 's', 'e'] rest).map fun rest => (false, rest)
  | other => .error (wrongType other)

def readText : Reader String := fun cs =>
  match skipSpace cs with
  | '"' :: rest => mapRead String.ofList (readString rest)
  | other => .error (wrongType other)

/-- An integer from a literal, if it lies between two bounds. -/
def boundedInt (low high : Int) : Except Fault (Literal × List Char) → Except Fault (Int × List Char)
  | .error fault => .error fault
  | .ok (literal, rest) =>
    match literal.toInt? with
    | some value => if low ≤ value ∧ value ≤ high then .ok (value, rest) else .error .mistyped
    | none => .error literal.fault

/-- Reads an integer between two bounds. -/
def readInt (low high : Int) : Reader Int := fun cs =>
  match skipSpace cs with
  | '-' :: rest => boundedInt low high (readLiteral true rest)
  | other =>
    if other.head?.any Char.isDigit then boundedInt low high (readLiteral false other)
    else .error (wrongType other)

def readInt64 : Reader Int64 := fun cs =>
  mapRead Int64.ofInt (readInt Int64.minValue.toInt Int64.maxValue.toInt cs)

def readUInt64 : Reader UInt64 := fun cs =>
  mapRead (fun value => UInt64.ofNat value.toNat) (readInt 0 (UInt64.size - 1 : Nat) cs)

def readUInt16 : Reader UInt16 := fun cs =>
  mapRead (fun value => UInt16.ofNat value.toNat) (readInt 0 (UInt16.size - 1 : Nat) cs)

/-- Reads a value or `null`, which stands for no value. -/
def readOptional {α : Type} (read : Reader α) : Reader (Option α) := fun cs =>
  match skipSpace cs with
  | 'n' :: rest => (expect ['u', 'l', 'l'] rest).map fun rest => (none, rest)
  | other => mapRead some (read other)

/-! ## Names of a closed set -/

/-- A name of a closed set, from a string whose opening quote has been read. -/
def readNameRest {α : Type} (ofName? : String → Option α) : Reader α := fun cs =>
  match readString cs with
  | .error fault => .error fault
  | .ok (text, rest) =>
    match ofName? (String.ofList text) with
    | some value => .ok (value, rest)
    | none => .error .mistyped

/-- Reads the colon between a member's name and its value. -/
def readColon (cs : List Char) : Except Fault (List Char) :=
  match skipSpace cs with
  | [] => .error .cutShort
  | c :: rest => if c = ':' then .ok rest else .error .malformed

/-- Reads `null` and a closing brace. -/
def readUnit (cs : List Char) : Except Fault (List Char) :=
  match skipSpace cs with
  | 'n' :: rest =>
    match expect ['u', 'l', 'l'] rest with
    | .error fault => .error fault
    | .ok rest =>
      match skipSpace rest with
      | [] => .error .cutShort
      | c :: rest => if c = '}' then .ok rest else .error .malformed
  | other => .error (wrongType other)

/-- Reads a name of a closed set, as a string or as the only member of an object, with `null`. -/
def readName {α : Type} (ofName? : String → Option α) : Reader α := fun cs =>
  match skipSpace cs with
  | [] => .error .cutShort
  | '"' :: rest => readNameRest ofName? rest
  | '{' :: rest =>
    match skipSpace rest with
    | '"' :: rest =>
      match readNameRest ofName? rest with
      | .error fault => .error fault
      | .ok (value, rest) =>
        match readColon rest with
        | .error fault => .error fault
        | .ok rest => (readUnit rest).map fun rest => (value, rest)
    | other => .error (wrongType other)
  | _ => .error .malformed

/-! ## Objects -/

/--
Reads the members of an object up to and with its closing brace.  `member` takes
the name of a member, whose colon is next, and what has been read before it.
The first argument bounds the number of members.
-/
def readMembers {σ : Type} (member : String → σ → Reader σ) : Nat → Bool → σ → Reader σ
  | 0, _, _, _ => .error .cutShort
  | bound + 1, isFirst, state, cs =>
    let named : Reader σ := fun cs =>
      match readString cs with
      | .error fault => .error fault
      | .ok (name, rest) =>
        match member (String.ofList name) state rest with
        | .error fault => .error fault
        | .ok (state, rest) => readMembers member bound false state rest
    match skipSpace cs with
    | [] => .error .cutShort
    | '}' :: rest => .ok (state, rest)
    | '"' :: rest => if isFirst then named rest else .error .malformed
    | ',' :: rest =>
      if isFirst then .error .malformed
      else
        match skipSpace rest with
        | [] => .error .cutShort
        | '"' :: rest => named rest
        | _ => .error .malformed
    | _ => .error .malformed

/-- Reads an object whose opening brace has been read. -/
def readObject {σ : Type} (member : String → σ → Reader σ) (initial : σ) : Reader σ := fun cs =>
  readMembers member (cs.length + 1) true initial cs

/-! ## Lists -/

/-- Finds the next item of a list: `none` at the closing bracket, which is not consumed. -/
def nextItem (isFirst : Bool) (cs : List Char) : Except Fault (Option (List Char)) :=
  match skipSpace cs with
  | [] => .error .cutShort
  | ']' :: _ => .ok none
  | ',' :: rest =>
    if isFirst then .ok (some (',' :: rest))
    else
      match skipSpace rest with
      | [] => .error .cutShort
      | ']' :: _ => .error .malformed
      | item => .ok (some item)
  | other => if isFirst then .ok (some other) else .error .malformed

/-- Reads the closing bracket of a list; nothing else may stand there. -/
def closeList (cs : List Char) : Except Fault (List Char) :=
  match skipSpace cs with
  | [] => .error .cutShort
  | ']' :: rest => .ok rest
  | _ => .error .malformed

/-- Reads the items of a list up to its closing bracket; the number bounds them. -/
def readItems {α : Type} (read : Reader α) : Nat → Bool → Reader (List α)
  | 0, _, _ => .error .cutShort
  | bound + 1, isFirst, cs =>
    match nextItem isFirst cs with
    | .error fault => .error fault
    | .ok none => .ok ([], cs)
    | .ok (some item) =>
      match read item with
      | .error fault => .error fault
      | .ok (value, rest) => mapRead (value :: ·) (readItems read bound false rest)

def readList {α : Type} (read : Reader α) : Reader (List α) := fun cs =>
  match skipSpace cs with
  | '[' :: rest =>
    match readItems read (rest.length + 1) true rest with
    | .error fault => .error fault
    | .ok (items, rest) => (closeList rest).map fun rest => (items, rest)
  | other => .error (wrongType other)

/-! ## Records -/

/-- A field of a record: its name, and how its value is read into the record. -/
structure RecordField (σ : Type) where
  name : String
  read : σ → Reader σ

/-- Reads a member of a record; a known name may occur once, others are skipped. -/
def readField {σ : Type} (fields : List (RecordField σ)) (name : String) (state : List String × σ) :
    Reader (List String × σ) := fun cs =>
  match fields.find? (fun field => field.name == name) with
  | none =>
    match readColon cs with
    | .error fault => .error fault
    | .ok rest => (skipValue rest).map fun rest => (state, rest)
  | some field =>
    if name ∈ state.1 then .error .mistyped
    else
      match readColon cs with
      | .error fault => .error fault
      | .ok rest => mapRead (fun record => (name :: state.1, record)) (field.read state.2 rest)

/-- Reads fields written as a list, in order, as far as they are given. -/
def readFields {σ : Type} : List (RecordField σ) → Bool → List String × σ → Reader (List String × σ)
  | [], _, state, cs => .ok (state, cs)
  | field :: fields, isFirst, state, cs =>
    match nextItem isFirst cs with
    | .error fault => .error fault
    | .ok none => .ok (state, cs)
    | .ok (some item) =>
      match field.read state.2 item with
      | .error fault => .error fault
      | .ok (record, rest) => readFields fields false (field.name :: state.1, record) rest

/-- Accepts a record if each of the required fields has been read. -/
def complete {σ : Type} (required : List String) :
    (List String × σ) × List Char → Except Fault (σ × List Char)
  | ((seen, record), rest) =>
    if required.all seen.contains then .ok (record, rest) else .error .mistyped

/-- Reads a record, starting from `initial`; fields that are not required may be missing. -/
def readRecord {σ : Type} (fields : List (RecordField σ)) (required : List String) (initial : σ) :
    Reader σ := fun cs =>
  match skipSpace cs with
  | '{' :: rest =>
    match readObject (readField fields) ([], initial) rest with
    | .error fault => .error fault
    | .ok read => complete required read
  | '[' :: rest =>
    match readFields fields true ([], initial) rest with
    | .error fault => .error fault
    | .ok read =>
      match complete required read with
      | .error fault => .error fault
      | .ok (record, rest) => (closeList rest).map fun rest => (record, rest)
  | other => .error (wrongType other)

/-- Reads a whole text as one value, with nothing but blanks after it. -/
def readWhole {α : Type} (read : Reader α) (text : List Char) : Except Fault α :=
  match read text with
  | .error fault => .error fault
  | .ok (value, rest) => if (skipSpace rest).isEmpty then .ok value else .error .malformed

end Turnstile.Json
