/-!
# The name of an executable

A command's first token names an executable directly or by a path.  Both kinds
of slash separate path components, and one trailing `.exe` does not belong to
the name.
-/

namespace Turnstile.Command

/-- The characters that separate the components of a path. -/
def isSeparator (c : Char) : Bool :=
  c == '/' || c == '\\'

/-- A token that names its executable by a path. -/
def isPath (token : String) : Bool :=
  token.toList.any isSeparator

/-- The characters after the last separator. -/
def baseName (cs : List Char) : List Char :=
  (cs.reverse.takeWhile fun c => !isSeparator c).reverse

/-- The suffix of a file name that is not part of the executable's name. -/
def suffix : List Char := ['.', 'e', 'x', 'e']

/-- A file name without one trailing `.exe`, in any letter case, if anything remains. -/
def dropSuffix (cs : List Char) : List Char :=
  let stem := cs.take (cs.length - suffix.length)
  let ending := cs.drop (cs.length - suffix.length)
  if stem ≠ [] ∧ ending.map Char.toLower = suffix then stem else cs

/-- The name of the executable that a token names. -/
def executableName (token : String) : String :=
  String.ofList (dropSuffix (baseName token.toList))

end Turnstile.Command
