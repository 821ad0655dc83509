/-!
# Scanning JSON text

Reading of the lexical parts of JSON text from the front: blanks, words, strings
and their escapes, and values that are skipped without being kept.  Every reader
returns what it read and the rest of the text, or the first fault it met.
-/

namespace Turnstile.Json

/-- What is wrong with a text at its first problem. -/
inductive Fault where
  /-- Not JSON, or more of it than the format has room for. -/
  | malformed
  /-- Well-formed so far, but of the wrong type, range, key or number of fields. -/
  | mistyped
  /-- The text ended too early. -/
  | cutShort
  deriving DecidableEq, Repr

/-- Reads a value from the front of a text and returns the rest. -/
abbrev Reader (α : Type) := List Char → Except Fault (α × List Char)

def isSpace (c : Char) : Bool :=
  c == ' ' || c == '\t' || c == '\n' || c == '\r'

def skipSpace (cs : List Char) : List Char :=
  cs.dropWhile isSpace

theorem length_skipSpace_le (cs : List Char) : (skipSpace cs).length ≤ cs.length :=
  List.Sublist.length_le (List.dropWhile_sublist _)

/-- Reads the given characters. -/
def expect : List Char → List Char → Except Fault (List Char)
  | [], cs => .ok cs
  | _ :: _, [] => .error .cutShort
  | wanted :: more, c :: rest => if c = wanted then expect more rest else .error .malformed

theorem length_le_of_expect {word cs rest : List Char} (read : expect word cs = .ok rest) :
    rest.length ≤ cs.length := by
  induction word generalizing cs with
  | nil => simp_all [expect]
  | cons wanted more ih =>
    cases cs with
    | nil => simp [expect] at read
    | cons c tail =>
      simp only [expect] at read
      split at read
      · have := ih read
        simp only [List.length_cons]
        omega
      · simp at read

/-! ## Strings -/

def hexDigit? (c : Char) : Option Nat :=
  if '0' ≤ c ∧ c ≤ '9' then some (c.toNat - '0'.toNat)
  else if 'a' ≤ c ∧ c ≤ 'f' then some (c.toNat - 'a'.toNat + 10)
  else if 'A' ≤ c ∧ c ≤ 'F' then some (c.toNat - 'A'.toNat + 10)
  else none

/-- The fault of a text that does not start with four hexadecimal digits. -/
def hexFault (cs : List Char) : Fault :=
  if (String.ofList cs).utf8ByteSize < 4 then .cutShort else .malformed

/-- Reads four hexadecimal digits. -/
def readHex : Reader Nat
  | a :: b :: c :: d :: rest =>
    match hexDigit? a, hexDigit? b, hexDigit? c, hexDigit? d with
    | some a, some b, some c, some d => .ok (((a * 16 + b) * 16 + c) * 16 + d, rest)
    | _, _, _, _ => .error .malformed
  | cs => .error (hexFault cs)

theorem length_lt_of_readHex {cs rest : List Char} {code : Nat}
    (read : readHex cs = .ok (code, rest)) : rest.length < cs.length := by
  unfold readHex at read
  split at read
  · split at read
    · simp only [Except.ok.injEq, Prod.mk.injEq] at read
      rw [← read.2]
      simp only [List.length_cons]
      omega
    · simp at read
  · simp at read

def isLeadSurrogate (code : Nat) : Bool :=
  0xD800 ≤ code && code ≤ 0xDBFF

def isTrailSurrogate (code : Nat) : Bool :=
  0xDC00 ≤ code && code ≤ 0xDFFF

/-- Reads the second half of a surrogate pair whose first half is `lead`. -/
def readTrail (lead : Nat) : Reader Char
  | [] => .error .cutShort
  | ['\\'] => .error .cutShort
  | '\\' :: 'u' :: rest =>
    match readHex rest with
    | .error fault => .error fault
    | .ok (trail, rest) =>
      if isTrailSurrogate trail then
        .ok (Char.ofNat (0x10000 + (lead - 0xD800) * 0x400 + (trail - 0xDC00)), rest)
      else .error .malformed
  | _ => .error .malformed

theorem length_lt_of_readTrail {lead : Nat} {cs rest : List Char} {c : Char}
    (read : readTrail lead cs = .ok (c, rest)) : rest.length < cs.length := by
  unfold readTrail at read
  split at read
  · simp at read
  · simp at read
  · rename_i after
    split at read
    · simp at read
    · rename_i trail remaining hex
      split at read
      · simp only [Except.ok.injEq, Prod.mk.injEq] at read
        have := length_lt_of_readHex hex
        rw [← read.2]
        simp only [List.length_cons]
        omega
      · simp at read
  · simp at read

/-- The character written by a backslash and one letter. -/
def shortEscape? : Char → Option Char
  | '"' => some '"'
  | '\\' => some '\\'
  | '/' => some '/'
  | 'b' => some '\x08'
  | 'f' => some '\x0c'
  | 'n' => some '\n'
  | 'r' => some '\r'
  | 't' => some '\t'
  | _ => none

/-- Reads what follows a backslash in a string that is kept. -/
def readEscape : Reader Char
  | [] => .error .cutShort
  | 'u' :: rest =>
    match readHex rest with
    | .error fault => .error fault
    | .ok (code, rest) =>
      if isTrailSurrogate code then .error .malformed
      else if isLeadSurrogate code then readTrail code rest
      else .ok (Char.ofNat code, rest)
  | c :: rest =>
    match shortEscape? c with
    | some char => .ok (char, rest)
    | none => .error .malformed

theorem length_lt_of_readEscape {cs rest : List Char} {c : Char}
    (read : readEscape cs = .ok (c, rest)) : rest.length < cs.length := by
  unfold readEscape at read
  split at read
  · simp at read
  · split at read
    · simp at read
    · rename_i code remaining hex
      have shorter := length_lt_of_readHex hex
      simp only [List.length_cons]
      split at read
      · simp at read
      · split at read
        · have := length_lt_of_readTrail read
          omega
        · simp only [Except.ok.injEq, Prod.mk.injEq] at read
          rw [← read.2]
          omega
  · split at read
    · simp only [Except.ok.injEq, Prod.mk.injEq] at read
      rw [← read.2]
      simp
    · simp at read

/-- Reads the rest of a string whose opening quote has been read. -/
def readString (cs : List Char) : Except Fault (List Char × List Char) :=
  match cs with
  | [] => .error .cutShort
  | c :: rest =>
    if c = '"' then .ok ([], rest)
    else if c = '\\' then
      match escape : readEscape rest with
      | .error fault => .error fault
      | .ok (char, after) =>
        have := length_lt_of_readEscape escape
        match readString after with
        | .error fault => .error fault
        | .ok (text, final) => .ok (char :: text, final)
    else if c.toNat < 0x20 then .error .malformed
    else
      match readString rest with
      | .error fault => .error fault
      | .ok (text, final) => .ok (c :: text, final)
termination_by cs.length
decreasing_by all_goals simp_all only [List.length_cons]; omega

/-- Skips what follows a backslash in a string that is not kept; surrogates may stand alone. -/
def skipEscape : List Char → Except Fault (List Char)
  | [] => .error .cutShort
  | 'u' :: rest => (readHex rest).map Prod.snd
  | c :: rest => if (shortEscape? c).isSome then .ok rest else .error .malformed

theorem length_lt_of_skipEscape {cs rest : List Char} (read : skipEscape cs = .ok rest) :
    rest.length < cs.length := by
  unfold skipEscape at read
  split at read
  · simp at read
  · rename_i tail
    cases hex : readHex tail with
    | error fault => simp [hex, Except.map] at read
    | ok result =>
      obtain ⟨code, remaining⟩ := result
      have := length_lt_of_readHex hex
      simp only [hex, Except.map, Except.ok.injEq] at read
      subst read
      simp only [List.length_cons]
      omega
  · split at read
    · simp_all
    · simp at read

/-- Skips the rest of a string whose opening quote has been read. -/
def skipString (cs : List Char) : Except Fault (List Char) :=
  match cs with
  | [] => .error .cutShort
  | c :: rest =>
    if c = '"' then .ok rest
    else if c = '\\' then
      match escape : skipEscape rest with
      | .error fault => .error fault
      | .ok after =>
        have := length_lt_of_skipEscape escape
        skipString after
    else if c.toNat < 0x20 then .error .malformed
    else skipString rest
termination_by cs.length
decreasing_by all_goals simp_all only [List.length_cons]; omega

theorem length_lt_of_skipString {cs rest : List Char} (read : skipString cs = .ok rest) :
    rest.length < cs.length := by
  fun_induction skipString cs generalizing rest with
  | case1 => simp at read
  | case2 => simp_all
  | case3 => simp at read
  | case4 tail after escape shorter _ ih =>
    have := ih read
    simp only [List.length_cons]
    omega
  | case5 => simp at read
  | case6 c tail quote backslash control ih =>
    have := ih read
    simp only [List.length_cons]
    omega

end Turnstile.Json
