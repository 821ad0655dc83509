/-!
# Shell scripts

The parts of a small command language: words with their expansions,
redirections, and commands.
-/

namespace Turnstile.Shell

/-- What a parameter expansion does with its parameter. -/
inductive ParamUse where
  | plain
  /-- The number of characters. -/
  | length
  /-- A text in place of a parameter that is unset or, with a colon, empty. -/
  | fallback (colon : Bool) (text : List Char)
  /-- A text in place of a parameter that is set and, with a colon, not empty. -/
  | instead (colon : Bool) (text : List Char)
  deriving DecidableEq, Repr, Inhabited

/-- A part of a word. -/
inductive Part where
  /-- Characters as written. -/
  | text (chars : List Char) (quoted : Bool)
  | param (name : String) (use : ParamUse) (quoted : Bool)
  /-- A command whose output takes this place. -/
  | command (source : List Char) (quoted : Bool)
  /-- An arithmetic expression whose value takes this place. -/
  | arithmetic (source : List Char) (quoted : Bool)
  /-- The output of a command that has been run. -/
  | result (chars : List Char) (quoted : Bool)
  deriving DecidableEq, Repr, Inhabited

abbrev Word := List Part

/-- How a file is opened. -/
inductive OpenMode where
  | read
  | write
  | append
  deriving DecidableEq, Repr, Inhabited

/-- A change of one file descriptor. -/
inductive Redirect where
  | file (fd : Nat) (mode : OpenMode) (target : Word)
  /-- Makes a descriptor the same as another, or closes it if the target is a hyphen. -/
  | duplicate (fd : Nat) (target : Word)
  deriving DecidableEq, Repr, Inhabited

inductive Command where
  | nothing
  | simple (line : Nat) (assignments : List (String × Word)) (words : List Word)
      (redirects : List Redirect)
  | pipeline (stages : List Command)
  | invert (body : Command)
  /-- The second runs if the first succeeds. -/
  | both (first second : Command)
  /-- The second runs if the first fails. -/
  | either (first second : Command)
  | sequence (first second : Command)
  | background (body : Command)
  | branch (condition yes no : Command)
  /-- Runs the body while the condition succeeds, or fails. -/
  | loop (negated : Bool) (condition body : Command)
  /-- Runs the body for each word, or for each argument if no words are given. -/
  | each (name : String) (words : Option (List Word)) (body : Command)
  | choose (subject : Word) (clauses : List (List Word × Command))
  | redirected (body : Command) (redirects : List Redirect)
  | subshell (body : Command)
  | define (name : String) (body : Command)
  /-- A text that is no command. -/
  | malformed (line : Nat) (reason : String)
  deriving Inhabited

end Turnstile.Shell
