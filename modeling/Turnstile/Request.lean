import Turnstile.Json.Value

/-!
# Requests

A command line to run, and where to run it.
-/

namespace Turnstile

/-- Command tokens, executable first, and the directory to run in if it is not the caller's. -/
structure Request where
  argv : List String
  workingDir : Option String := none
  deriving DecidableEq, Repr

namespace Request

/-- The executable token, if there is one. -/
def executable? (request : Request) : Option String :=
  request.argv.head?

/-- The command as shown in logs. -/
def display (request : Request) : String :=
  " ".intercalate request.argv

def toJson (request : Request) : Json.Value :=
  .object [("argv", .list (request.argv.map .text)),
    ("working_dir", .ofOption .text request.workingDir)]

end Request

end Turnstile
