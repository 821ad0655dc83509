import Turnstile.Settings.Basic

/-!
# Limits from settings

Of what is configured for a category, a positive number counts; in place of any other
stands what is built in, for the processes and for their time apart.  A fixed category
keeps what is built in whatever the settings say.
-/

namespace Turnstile

namespace Category

theorem maxConcurrency_defaultLimits (category : Category) :
    category.defaultLimits.maxConcurrency = category.builtIn.1 := by
  cases category <;> rfl

theorem timeout_defaultLimits (category : Category) :
    category.defaultLimits.timeout = .ofSeconds (60 * category.builtIn.2.toNat) := by
  cases category <;> rfl

theorem builtIn_pos (category : Category) : 0 < category.builtIn.1 := by
  cases category <;> decide

end Category

namespace Settings

/-! ## Configured numbers -/

theorem positive?_of_pos {word : Int64} (positive : 0 < word.toInt) :
    positive? (some word) = some word.toInt.toNat :=
  if_pos positive

theorem positive?_of_not_pos {value : Option Int64}
    (unusable : ∀ word, value = some word → word.toInt ≤ 0) : positive? value = none := by
  cases value with
  | none => rfl
  | some word => exact if_neg (Int.not_lt.mpr (unusable word rfl))

theorem exists_of_positive? {value : Option Int64} {number : Nat}
    (found : positive? value = some number) :
    ∃ word, value = some word ∧ 0 < word.toInt ∧ word.toInt.toNat = number := by
  obtain ⟨word, has, counts⟩ := Option.bind_eq_some_iff.mp found
  by_cases positive : 0 < word.toInt
  · rw [if_pos positive] at counts
    exact ⟨word, has, positive, Option.some.inj counts⟩
  · rw [if_neg positive] at counts
    cases counts

theorem pos_of_positive? {value : Option Int64} {number : Nat}
    (found : positive? value = some number) : 0 < number := by
  obtain ⟨word, -, positive, rfl⟩ := exists_of_positive? found
  omega

theorem le_of_positive? {value : Option Int64} {number : Nat}
    (found : positive? value = some number) : number ≤ 9223372036854775807 := by
  obtain ⟨word, -, -, rfl⟩ := exists_of_positive? found
  have bound := word.toInt_lt
  omega

/-! ## Limits in force -/

variable {settings : Settings} {category : Category}

theorem limitsFor_of_fixed (fixed : category.isConfigurable = false) :
    settings.limitsFor category = category.defaultLimits := by
  rw [limitsFor, fixed]
  rfl

/-- What is configured for other categories does not matter. -/
theorem limitsFor_congr {other : Settings}
    (sessions : other.sessionLimits category = settings.sessionLimits category)
    (minutes : other.timeoutMinutes category = settings.timeoutMinutes category) :
    other.limitsFor category = settings.limitsFor category := by
  rw [limitsFor, limitsFor, sessions, minutes]

theorem maxConcurrency_limitsFor (configurable : category.isConfigurable = true) :
    (settings.limitsFor category).maxConcurrency =
      (positive? (settings.sessionLimits category)).getD category.builtIn.1 := by
  rw [limitsFor, if_pos configurable, category.maxConcurrency_defaultLimits]
  refine Nat.max_eq_left ?_
  cases found : positive? (settings.sessionLimits category) with
  | none => exact category.builtIn_pos
  | some sessions => exact pos_of_positive? found

theorem timeout_limitsFor (configurable : category.isConfigurable = true) :
    (settings.limitsFor category).timeout =
      ((positive? (settings.timeoutMinutes category)).map minutesBudget).getD
        (.ofSeconds (60 * category.builtIn.2.toNat)) := by
  rw [limitsFor, if_pos configurable, category.timeout_defaultLimits]
  rfl

/-- A positive number of minutes is sixty seconds each, as far as a word can count. -/
theorem timeout_limitsFor_of_pos {word : Int64} (configurable : category.isConfigurable = true)
    (written : settings.timeoutMinutes category = some word) (positive : 0 < word.toInt) :
    (settings.limitsFor category).timeout =
      .ofSeconds (min (60 * word.toInt.toNat) 18446744073709551615) := by
  have largest : maxSeconds = 18446744073709551615 := rfl
  rw [timeout_limitsFor configurable, written, positive?_of_pos positive, Option.map_some,
    Option.getD_some, minutesBudget, largest, Nat.mul_comm]

/-- Settings grant no more processes than a signed word can count. -/
theorem maxConcurrency_limitsFor_le (settings : Settings) (category : Category) :
    (settings.limitsFor category).maxConcurrency ≤ 9223372036854775807 := by
  have builtIn : category.builtIn.1 ≤ 9223372036854775807 := by cases category <;> decide
  cases configurable : category.isConfigurable with
  | false => rwa [limitsFor_of_fixed configurable, category.maxConcurrency_defaultLimits]
  | true =>
      rw [maxConcurrency_limitsFor configurable]
      cases found : positive? (settings.sessionLimits category) with
      | none => exact builtIn
      | some sessions => exact le_of_positive? found

end Settings

end Turnstile
