import Turnstile.Endpoint.Raw
import Turnstile.Limits

/-!
# Settings

What a settings file may say.  Every part may be left out; what is left out, or
is no usable value, is replaced by a default when the settings are put to use.
-/

namespace Turnstile

/-- A value for some of the categories. -/
abbrev CategoryTable (α : Type) := Category → Option α

namespace CategoryTable

def empty {α : Type} : CategoryTable α := fun _ => none

/-- The table with the value of one category set. -/
def insert {α : Type} (table : CategoryTable α) (category : Category) (value : α) :
    CategoryTable α :=
  fun other => if other = category then some value else table other

/-- The categories with a value, in listing order. -/
def keys {α : Type} (table : CategoryTable α) : List Category :=
  Category.all.filter fun category => (table category).isSome

end CategoryTable

/-- How servers are pooled. -/
structure PoolSettings where
  enabled : Option Bool := none
  auto : Option Bool := none
  endpoints : List RawEndpoint := []
  deriving DecidableEq, Repr

/-- The contents of a settings file. -/
structure Settings where
  sessionLimits : CategoryTable Int64 := .empty
  timeoutMinutes : CategoryTable Int64 := .empty
  liveUpdates : Option Bool := none
  killGraceSecs : Option UInt64 := none
  pool : PoolSettings := {}

namespace Settings

/-- The largest number of seconds a time budget can have. -/
def maxSeconds : Nat := UInt64.size - 1

/-- A configured number, if it is positive. -/
def positive? (value : Option Int64) : Option Nat :=
  value.bind fun value => if 0 < value.toInt then some value.toInt.toNat else none

/-- The time budget for a positive number of minutes; seconds do not exceed 64 bits. -/
def minutesBudget (minutes : Nat) : Time :=
  .ofSeconds (min (minutes * 60) maxSeconds)

/-- The limits in force for a category. -/
def limitsFor (settings : Settings) (category : Category) : Limits :=
  let builtIn := category.defaultLimits
  if category.isConfigurable then
    .of ((positive? (settings.sessionLimits category)).getD builtIn.maxConcurrency)
      (((positive? (settings.timeoutMinutes category)).map minutesBudget).getD builtIn.timeout)
  else builtIn

def live (settings : Settings) : Bool :=
  settings.liveUpdates.getD false

/-- Seconds between the first and the second attempt to end a process. -/
def graceSeconds (settings : Settings) : Nat :=
  (settings.killGraceSecs.map UInt64.toNat).getD 5

def poolEnabled (settings : Settings) : Bool :=
  settings.pool.enabled.getD true

def autoPool (settings : Settings) : Bool :=
  settings.pool.auto.getD true

end Settings

end Turnstile
