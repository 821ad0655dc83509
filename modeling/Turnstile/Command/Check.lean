import Turnstile.Command.Allowlist
import Turnstile.Command.Name
import Turnstile.Text.Blank

/-!
# Checking a command line

Whether a command line may be started.  The rules are applied in a fixed order
and the first broken one is reported.  Only an executable named by a path is
looked up, and only after every rule about its text has been met.
-/

namespace Turnstile

/-- What a path points at, links followed. -/
inductive PathKind where
  | missing
  | file
  | other
  deriving DecidableEq, Repr

/-- Why a command line is refused. -/
inductive Refusal where
  | emptyCommand
  | blankExecutable
  | unsafeCharacters (index : Nat)
  | pathTraversal (executable : String)
  | notFound (executable : String)
  | notRegularFile (executable : String)
  | noFileName (executable : String)
  | notAllowed (name : String)
  deriving DecidableEq, Repr

namespace Refusal

def message : Refusal → String
  | .emptyCommand => "Command must not be empty"
  | .blankExecutable => "Command executable must not be blank"
  | .unsafeCharacters index => "Command argument " ++ toString index ++ " contains invalid characters"
  | .pathTraversal executable => "Command executable contains path traversal: " ++ executable
  | .notFound executable => "Command executable does not exist: " ++ executable
  | .notRegularFile executable => "Command executable is not a regular file: " ++ executable
  | .noFileName executable => "Command executable has no filename component: " ++ executable
  | .notAllowed name => "Command executable is not in allowlist: " ++ name

end Refusal

namespace Command

/-- Characters that no token may hold: NUL, CR and LF. -/
def isUnsafe (c : Char) : Bool :=
  c == '\x00' || c == '\r' || c == '\n'

/-- A token with a character that no token may hold. -/
def hasUnsafe (token : String) : Bool :=
  token.toList.any isUnsafe

/-- A token with two dots in a row. -/
def hasTraversal (token : String) : Bool :=
  Text.occursIn ['.', '.'] token.toList

/-- A check under way: settled, or waiting to hear what a path points at. -/
inductive Inquiry where
  | settled (verdict : Except Refusal Unit)
  | ask (path : String) (next : PathKind → Inquiry)

namespace Inquiry

/-- The verdict when `probe` answers. -/
def verdict (probe : String → PathKind) : Inquiry → Except Refusal Unit
  | .settled verdict => verdict
  | .ask path next => (next (probe path)).verdict probe

/-- The paths asked about when `probe` answers, in order. -/
def asked (probe : String → PathKind) : Inquiry → List String
  | .settled _ => []
  | .ask path next => path :: (next (probe path)).asked probe

end Inquiry

/-- The last rule for an executable named by a path that is a regular file. -/
def checkName (allowed : Allowlist) (executable : String) : Except Refusal Unit :=
  let name := executableName executable
  if name = "" then .error (.noFileName executable)
  else if allowed.contains name then .ok ()
  else .error (.notAllowed name)

/-- The rules about the executable token alone. -/
def checkExecutable (allowed : Allowlist) (executable : String) : Inquiry :=
  if Text.isBlankText executable then .settled (.error .blankExecutable)
  else if hasTraversal executable then .settled (.error (.pathTraversal executable))
  else if isPath executable then
    .ask executable fun
      | .missing => .settled (.error (.notFound executable))
      | .other => .settled (.error (.notRegularFile executable))
      | .file => .settled (checkName allowed executable)
  else if allowed.contains executable then .settled (.ok ())
  else .settled (.error (.notAllowed executable))

/-- The check of a command line as an inquiry. -/
def inquire (allowed : Allowlist) : List String → Inquiry
  | [] => .settled (.error .emptyCommand)
  | executable :: arguments =>
    match (executable :: arguments).findIdx? hasUnsafe with
    | some index => .settled (.error (.unsafeCharacters index))
    | none => checkExecutable allowed executable

/-- Whether a command line may be started, with `probe` telling what paths point at. -/
def check (allowed : Allowlist) (probe : String → PathKind) (argv : List String) :
    Except Refusal Unit :=
  (inquire allowed argv).verdict probe

/-- The paths looked up while a command line is checked. -/
def probed (allowed : Allowlist) (probe : String → PathKind) (argv : List String) : List String :=
  (inquire allowed argv).asked probe

end Command

end Turnstile
