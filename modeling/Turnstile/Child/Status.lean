/-!
# Exit statuses and signals

How a process ends, and the two signals that are sent to end it.
-/

namespace Turnstile

/-- The signals that are sent to a process that has to end. -/
inductive Signal where
  /-- Asks the process to end. -/
  | term
  /-- Ends the process. -/
  | kill
  deriving DecidableEq, Repr

namespace Signal

/-- The number of a signal. -/
def number : Signal → Nat
  | .term => 15
  | .kill => 9

end Signal

/-- How a process ended. -/
inductive ExitStatus where
  | exited (code : Nat)
  | signalled (number : Nat)
  deriving DecidableEq, Repr

namespace ExitStatus

/-- The code as reported: a process that a signal ended has none, and is given -1. -/
def code : ExitStatus → Int
  | .exited code => code
  | .signalled _ => -1

def code? : ExitStatus → Option Nat
  | .exited code => some code
  | .signalled _ => none

def signal? : ExitStatus → Option Nat
  | .exited _ => none
  | .signalled number => some number

end ExitStatus

end Turnstile
