import Turnstile.Json.Number

/-!
# Skipping values

A value that nobody asks for is checked for its form and dropped.  The open
brackets around the current place are kept on a stack, so nesting has no limit.
-/

namespace Turnstile.Json

/-- An open bracket. -/
inductive Frame where
  | list
  | object
  deriving DecidableEq, Repr

namespace Frame

def closer : Frame → Char
  | .list => ']'
  | .object => '}'

end Frame

/-- What a skipped text is to continue with. -/
inductive Awaiting where
  /-- A value. -/
  | value
  /-- The name of a member, its colon and its value. -/
  | member
  /-- The closing bracket or the first item of the innermost bracket. -/
  | firstItem
  /-- The closing bracket of the innermost bracket, or a comma and the next item. -/
  | nextItem
  deriving DecidableEq, Repr

namespace Awaiting

/-- Orders the states between which no character is consumed. -/
def rank : Awaiting → Nat
  | .value => 0
  | .member => 0
  | .nextItem => 0
  | .firstItem => 1

end Awaiting

/-- What an item of a bracket starts with. -/
def Frame.item : Frame → Awaiting
  | .list => .value
  | .object => .member

/-- Skips the first part of a value: all of it, or the bracket it opens. -/
def skipHead : List Char → Except Fault (Option Frame × List Char)
  | [] => .error .cutShort
  | 'n' :: rest => (expect ['u', 'l', 'l'] rest).map fun rest => (none, rest)
  | 't' :: rest => (expect ['r', 'u', 'e'] rest).map fun rest => (none, rest)
  | 'f' :: rest => (expect ['a', 'l', 's', 'e'] rest).map fun rest => (none, rest)
  | '-' :: rest => (skipNumber rest).map fun rest => (none, rest)
  | '"' :: rest => (skipString rest).map fun rest => (none, rest)
  | '[' :: rest => .ok (some .list, rest)
  | '{' :: rest => .ok (some .object, rest)
  | cs =>
    if cs.head?.any Char.isDigit then (skipNumber cs).map fun rest => (none, rest)
    else .error .malformed

/-- Skips the name of a member and its colon. -/
def skipName : List Char → Except Fault (List Char)
  | [] => .error .cutShort
  | c :: rest =>
    if c = '"' then
      match skipString rest with
      | .error fault => .error fault
      | .ok rest =>
        match skipSpace rest with
        | [] => .error .cutShort
        | c :: rest => if c = ':' then .ok rest else .error .malformed
    else .error .malformed

private theorem length_lt_of_map {cs rest : List Char} {read : Except Fault (List Char)}
    {frame : Option Frame} {c : Char} (bound : ∀ r, read = .ok r → r.length ≤ cs.length)
    (mapped : read.map (fun rest => ((none : Option Frame), rest)) = .ok (frame, rest)) :
    rest.length < (c :: cs).length := by
  cases read with
  | error fault => simp [Except.map] at mapped
  | ok tail =>
    simp only [Except.map, Except.ok.injEq, Prod.mk.injEq] at mapped
    have := bound tail rfl
    rw [← mapped.2, List.length_cons]
    omega

theorem length_lt_of_skipHead {cs rest : List Char} {frame : Option Frame}
    (read : skipHead cs = .ok (frame, rest)) : rest.length < cs.length := by
  unfold skipHead at read
  split at read
  · simp at read
  · exact length_lt_of_map (fun _ h => length_le_of_expect h) read
  · exact length_lt_of_map (fun _ h => length_le_of_expect h) read
  · exact length_lt_of_map (fun _ h => length_le_of_expect h) read
  · exact length_lt_of_map (fun _ h => Nat.le_of_lt (length_lt_of_skipNumber h)) read
  · exact length_lt_of_map (fun _ h => Nat.le_of_lt (length_lt_of_skipString h)) read
  · simp_all
  · simp_all
  · split at read
    · cases number : skipNumber cs with
      | error fault => simp [number, Except.map] at read
      | ok tail =>
        have := length_lt_of_skipNumber number
        simp only [number, Except.map, Except.ok.injEq, Prod.mk.injEq] at read
        rw [← read.2]
        exact this
    · simp at read

theorem length_lt_of_skipName {cs rest : List Char} (read : skipName cs = .ok rest) :
    rest.length < cs.length := by
  unfold skipName at read
  split at read
  · simp at read
  · split at read
    · split at read
      · simp at read
      · rename_i after quoted
        have := length_lt_of_skipString quoted
        have := length_skipSpace_le after
        split at read
        · simp at read
        · rename_i spaced
          split at read
          · simp only [Except.ok.injEq] at read
            subst read
            rw [spaced] at this
            simp only [List.length_cons] at *
            omega
          · simp at read
    · simp at read

/-- Skips on until the brackets in `frames` and the awaited value are all closed. -/
def skipFrom (awaiting : Awaiting) (frames : List Frame) (cs : List Char) :
    Except Fault (List Char) :=
  match awaiting with
  | .value =>
    match _head : skipHead (skipSpace cs) with
    | .error fault => .error fault
    | .ok (some frame, rest) => skipFrom .firstItem (frame :: frames) rest
    | .ok (none, rest) => skipFrom .nextItem frames rest
  | .member =>
    match _name : skipName (skipSpace cs) with
    | .error fault => .error fault
    | .ok rest => skipFrom .value frames rest
  | .firstItem =>
    match frames with
    | [] => .ok cs
    | frame :: outer =>
      match _spaced : skipSpace cs with
      | [] => .error .cutShort
      | c :: rest =>
        if c = frame.closer then skipFrom .nextItem outer rest
        else skipFrom frame.item (frame :: outer) cs
  | .nextItem =>
    match frames with
    | [] => .ok cs
    | frame :: outer =>
      match _spaced : skipSpace cs with
      | [] => .error .cutShort
      | c :: rest =>
        if c = frame.closer then skipFrom .nextItem outer rest
        else if c = ',' then skipFrom frame.item (frame :: outer) rest
        else .error .malformed
termination_by (cs.length, awaiting.rank)
decreasing_by
  · have := length_lt_of_skipHead _head
    have := length_skipSpace_le cs
    exact Prod.Lex.left _ _ (by omega)
  · have := length_lt_of_skipHead _head
    have := length_skipSpace_le cs
    exact Prod.Lex.left _ _ (by omega)
  · have := length_lt_of_skipName _name
    have := length_skipSpace_le cs
    exact Prod.Lex.left _ _ (by omega)
  · have := length_skipSpace_le cs
    rw [_spaced, List.length_cons] at this
    exact Prod.Lex.left _ _ (by omega)
  · cases frame <;> exact Prod.Lex.right _ (by decide)
  · have := length_skipSpace_le cs
    rw [_spaced, List.length_cons] at this
    exact Prod.Lex.left _ _ (by omega)
  · have := length_skipSpace_le cs
    rw [_spaced, List.length_cons] at this
    exact Prod.Lex.left _ _ (by omega)

/-- Skips one value. -/
def skipValue (cs : List Char) : Except Fault (List Char) :=
  skipFrom .value [] cs

end Turnstile.Json
