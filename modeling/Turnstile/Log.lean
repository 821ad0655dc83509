/-!
# Log lines

What is reported beside the result of a run: plain lines at two levels.
-/

namespace Turnstile

inductive LogLevel where
  | info
  | warn
  deriving DecidableEq, Repr

namespace LogLevel

def name : LogLevel → String
  | .info => "INFO"
  | .warn => "WARN"

end LogLevel

/-- One line of a log. -/
structure LogLine where
  level : LogLevel
  text : String
  deriving DecidableEq, Repr

namespace LogLine

def info (text : String) : LogLine := ⟨.info, text⟩

def warn (text : String) : LogLine := ⟨.warn, text⟩

/-- The line with its level in front. -/
def display (line : LogLine) : String :=
  line.level.name ++ " " ++ line.text

end LogLine

end Turnstile
