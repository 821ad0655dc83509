/-!
# Spans of time

Time is counted in microseconds, both for limits and for the instants of a
machine's clock.
-/

namespace Turnstile

/-- A span of time, or an instant counted from the start of a clock, in microseconds. -/
abbrev Time := Nat

namespace Time

def ofMillis (millis : Nat) : Time := millis * 1000

def ofSeconds (seconds : Nat) : Time := seconds * 1000000

/-- Whole seconds, rounded down. -/
def toSeconds (time : Time) : Nat := time / 1000000

/-- An instant that a clock can tell: its seconds have to fit in a signed word. -/
def IsInstant (time : Time) : Prop := toSeconds time < 9223372036854775808

instance (time : Time) : Decidable time.IsInstant :=
  inferInstanceAs (Decidable (_ < _))

theorem ofSeconds_le_ofSeconds {fewer more : Nat} :
    ofSeconds fewer ≤ ofSeconds more ↔ fewer ≤ more :=
  Nat.mul_le_mul_right_iff (by decide)

end Time

end Turnstile
