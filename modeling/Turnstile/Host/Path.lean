import Turnstile.Text.Utf8

/-!
# Paths

A written path is a run of names between slashes.  A place in a file tree is the
list of names that lead to it from the root.
-/

namespace Turnstile

/-- A place in a file tree: the names that lead to it from the root. -/
abbrev Place := List String

namespace Path

/-- The texts between the slashes of a path, empty ones included. -/
def splitSlash : List Char → List (List Char)
  | [] => [[]]
  | c :: rest =>
    if c = '/' then [] :: splitSlash rest
    else
      match splitSlash rest with
      | [] => [[c]]
      | part :: parts => (c :: part) :: parts

/-- A path that starts at the root. -/
def isAbsolute (path : String) : Bool :=
  path.toList.head? == some '/'

/-- The names of a path; a slash at its end asks for a directory, as a dot does. -/
def names (path : String) : List String :=
  let parts := splitSlash path.toList
  let ending := if parts.getLast? == some [] then ["."] else []
  (parts.filter (fun part => !part.isEmpty)).map String.ofList ++ ending

/-- The place that a path starts from. -/
def start (base : Place) (path : String) : Place :=
  if isAbsolute path then [] else base

/-- The path of a place, from the root. -/
def ofPlace (place : Place) : String :=
  if place.isEmpty then "/" else String.join (place.map fun name => "/" ++ name)

/-- The longest name that a directory can hold, in bytes. -/
def maxName : Nat := 255

/-- The first length, in bytes, at which a path is too long. -/
def maxPath : Nat := 4096

def isTooLong (path : String) : Bool :=
  maxPath ≤ path.utf8ByteSize

end Path

end Turnstile
