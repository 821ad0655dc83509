/-!
# Patterns of the shell

Patterns with `*`, `?` and bracketed sets.  A pattern is a list of characters of
which some stand for themselves because they were quoted.
-/

namespace Turnstile.Shell

/-- A character, and whether it stands for itself. -/
abbrev PatternChar := Char × Bool

/-- Whether a set of characters and ranges holds `c`. -/
def inSet (c : Char) : List PatternChar → Bool
  | (low, _) :: ('-', false) :: (high, _) :: rest => (low ≤ c && c ≤ high) || inSet c rest
  | (one, _) :: rest => one == c || inSet c rest
  | [] => false

/-- The set after an opening bracket, and the pattern after the closing one. -/
def readSet (pattern : List PatternChar) : Option (List PatternChar × List PatternChar) :=
  match pattern with
  | first :: rest =>
    let tail := rest.takeWhile (· != (']', false))
    match rest.drop tail.length with
    | _ :: after => some (first :: tail, after)
    | [] => none
  | [] => none

/-- Whether a pattern matches a text; `fuel` bounds the lengths of both together. -/
def matchesWithin : Nat → List PatternChar → List Char → Bool
  | 0, _, _ => false
  | fuel + 1, pattern, cs =>
    match pattern, cs with
    | [], [] => true
    | [], _ :: _ => false
    | ('*', false) :: rest, [] => matchesWithin fuel rest []
    | ('*', false) :: rest, c :: tail =>
      matchesWithin fuel rest (c :: tail) || matchesWithin fuel (('*', false) :: rest) tail
    | ('?', false) :: rest, _ :: tail => matchesWithin fuel rest tail
    | ('[', false) :: rest, c :: tail =>
      match readSet rest with
      | some (('!', false) :: set, after) => !inSet c set && matchesWithin fuel after tail
      | some (set, after) => inSet c set && matchesWithin fuel after tail
      | none => c == '[' && matchesWithin fuel rest tail
    | (p, _) :: rest, c :: tail => p == c && matchesWithin fuel rest tail
    | _ :: _, [] => false

/-- Whether a pattern matches the whole of a text. -/
def patternMatches (pattern : List PatternChar) (text : String) : Bool :=
  matchesWithin (pattern.length + text.length + 1) pattern text.toList

/-- A pattern that matches more than one text. -/
def isActive (pattern : List PatternChar) : Bool :=
  pattern.any fun item => !item.2 && (item.1 == '*' || item.1 == '?' || item.1 == '[')

end Turnstile.Shell
