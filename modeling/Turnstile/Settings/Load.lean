import Turnstile.Settings.Json
import Turnstile.Host.Error
import Turnstile.Text.Utf8

/-!
# Loading settings

From the bytes of a settings file to checked settings.  A file that does not
exist stands for settings that say nothing.
-/

namespace Turnstile

/-- Why settings cannot be used. -/
inductive SettingsError where
  | fixedCategory (category : Category)
  | invalidKillGrace (seconds : UInt64)
  | unreadable (path cause : String)
  | unparsable (path : String) (fault : Json.Fault)
  deriving DecidableEq, Repr

namespace SettingsError

/-- Stands for the wording of a fault in JSON text. -/
def faultDetail : String := "<detail>"

def message : SettingsError → String
  | .fixedCategory category =>
    "Limits for " ++ category.name ++ " are fixed and cannot be configured"
  | .invalidKillGrace seconds =>
    "Kill grace period must be between 1 and 60 seconds, got " ++ toString seconds
  | .unreadable path cause => "Failed to read settings file " ++ path ++ ": " ++ cause
  | .unparsable path _ => "Failed to parse settings file " ++ path ++ ": " ++ faultDetail

end SettingsError

namespace Settings

/-- The categories that the settings set limits for, sessions before timeouts. -/
def configured (settings : Settings) : List Category :=
  settings.sessionLimits.keys ++ settings.timeoutMinutes.keys

/-- Refuses limits for fixed categories, then a grace period that is none or too long. -/
def validate (settings : Settings) : Except SettingsError Unit :=
  match settings.configured.find? (fun category => !category.isConfigurable) with
  | some category => .error (.fixedCategory category)
  | none =>
    match settings.killGraceSecs with
    | none => .ok ()
    | some seconds =>
      if 1 ≤ seconds.toNat ∧ seconds.toNat ≤ 60 then .ok () else .error (.invalidKillGrace seconds)

/-- The settings in a file that could or could not be read, before they are checked. -/
def parseFile (path : String) : Except OsError Text.Bytes → Except SettingsError Settings
  | .error cause =>
    if cause = .notFound then .ok {} else .error (.unreadable path cause.message)
  | .ok bytes =>
    match Text.decode? bytes with
    | none => .error (.unreadable path OsError.notUtf8.message)
    | some text =>
      match parse text with
      | .error fault => .error (.unparsable path fault)
      | .ok settings => .ok settings

/-- The checked settings in a file. -/
def load (path : String) (contents : Except OsError Text.Bytes) : Except SettingsError Settings :=
  match parseFile path contents with
  | .error error => .error error
  | .ok settings =>
    match settings.validate with
    | .error error => .error error
    | .ok () => .ok settings

end Settings

end Turnstile
