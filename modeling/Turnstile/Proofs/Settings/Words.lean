import Turnstile.Proofs.Settings.Limits

/-!
# Limits in machine words

The limits of a category worked out in words of 64 bits, where a product may be too large
and a signed number may have no unsigned one.  Neither happens: the words are always found,
and they stand for the limits in force.
-/

namespace Turnstile

/-- Limits as machine words; none of the processes stands for one. -/
structure WordLimits where
  processes : UInt64
  timeout : Time

namespace WordLimits

/-- The limits that the words stand for. -/
def limits (words : WordLimits) : Limits :=
  .of words.processes.toNat words.timeout

def ofLimits (limits : Limits) : WordLimits where
  processes := .ofNat limits.maxConcurrency
  timeout := limits.timeout

theorem limits_eq {words : WordLimits} {limits : Limits}
    (processes : words.processes.toNat = limits.maxConcurrency)
    (timeout : words.timeout = limits.timeout) : words.limits = limits := by
  refine Limits.ext ?_ timeout
  change max words.processes.toNat 1 = limits.maxConcurrency
  rw [processes]
  exact Nat.max_eq_left limits.positive

theorem limits_ofLimits {limits : Limits} (fits : limits.maxConcurrency < UInt64.size) :
    (ofLimits limits).limits = limits :=
  limits_eq (UInt64.toNat_ofNat_of_lt' fits) rfl

end WordLimits

/-! ## Seconds -/

theorem seconds?_eq_some_iff {minutes seconds : UInt64} :
    seconds? minutes = some seconds ↔ seconds.toNat = minutes.toNat * 60 := by
  have exact : (minutes * 60).toNat = minutes.toNat * 60 % UInt64.size := UInt64.toNat_mul _ _
  rw [seconds?]
  split
  · rename_i fits
    rw [Nat.mod_eq_of_lt fits] at exact
    rw [Option.some_inj, ← exact, UInt64.toNat_inj]
    exact eq_comm
  · rename_i large
    refine iff_of_false (Option.some_ne_none _).symm fun same => large ?_
    rw [← same]
    exact seconds.toNat_lt_size

theorem seconds?_eq_none_iff {minutes : UInt64} :
    seconds? minutes = none ↔ UInt64.size ≤ minutes.toNat * 60 := by
  rw [seconds?]
  split
  · rename_i fits
    exact iff_of_false (Option.some_ne_none _) (Nat.not_le.mpr fits)
  · rename_i large
    exact iff_of_true rfl (Nat.le_of_not_lt large)

/-- Sixty seconds for each minute, or as many seconds as a word can hold. -/
def mostSeconds (minutes : UInt64) : UInt64 :=
  (seconds? minutes).getD (.ofNat Settings.maxSeconds)

theorem toNat_mostSeconds (minutes : UInt64) :
    (mostSeconds minutes).toNat = min (minutes.toNat * 60) Settings.maxSeconds := by
  have largest : Settings.maxSeconds + 1 = UInt64.size := rfl
  rw [mostSeconds]
  cases found : seconds? minutes with
  | some seconds =>
      have bound := seconds.toNat_lt_size
      rw [seconds?_eq_some_iff] at found
      rw [Option.getD_some, Nat.min_eq_left (by omega), found]
  | none =>
      rw [seconds?_eq_none_iff] at found
      rw [Option.getD_none, Nat.min_eq_right (by omega)]
      rfl

/-! ## Limits from settings -/

namespace Settings

/-- A configured number as an unsigned word, if it is positive. -/
def positiveWord? (value : Option Int64) : Option UInt64 :=
  value.bind fun word => if 0 < word then some word.toUInt64 else none

theorem map_toNat_positiveWord? (value : Option Int64) :
    (positiveWord? value).map UInt64.toNat = positive? value := by
  cases value with
  | none => rfl
  | some word =>
      simp only [positiveWord?, positive?, Option.bind_some, Int64.lt_iff_toInt_lt]
      change Option.map _ (if 0 < word.toInt then _ else _) = _
      split
      · rename_i positive
        rw [Option.map_some, Int64.toNat_toUInt64_of_le]
        · rfl
        · exact Int64.le_iff_toInt_le.mpr (Int.le_of_lt positive)
      · rfl

/-- What is built in for a category, if its minutes are not too many for the seconds of a word. -/
def builtInWords? (category : Category) : Option WordLimits :=
  (seconds? category.builtIn.2).map fun seconds =>
    { processes := .ofNat category.builtIn.1, timeout := .ofSeconds seconds.toNat }

/-- The limits in force for a category, if the words for what is built in are found. -/
def words? (settings : Settings) (category : Category) : Option WordLimits :=
  (builtInWords? category).map fun builtIn =>
    if category.isConfigurable then
      { processes := (positiveWord? (settings.sessionLimits category)).getD builtIn.processes
        timeout := ((positiveWord? (settings.timeoutMinutes category)).map fun minutes =>
          .ofSeconds (mostSeconds minutes).toNat).getD builtIn.timeout }
    else builtIn

theorem exists_builtInWords (category : Category) :
    ∃ words, builtInWords? category = some words ∧ words.processes.toNat = category.builtIn.1 ∧
      words.timeout = .ofSeconds (60 * category.builtIn.2.toNat) := by
  cases category <;> exact ⟨_, rfl, rfl, rfl⟩

/-- The words are found, and they stand for the limits in force. -/
theorem exists_words (settings : Settings) (category : Category) :
    ∃ words, settings.words? category = some words ∧
      words.limits = settings.limitsFor category := by
  obtain ⟨builtIn, found, processes, timeout⟩ := exists_builtInWords category
  refine ⟨_, by rw [words?, found, Option.map_some], ?_⟩
  cases configurable : category.isConfigurable with
  | false =>
      rw [limitsFor_of_fixed configurable, if_neg Bool.false_ne_true]
      refine WordLimits.limits_eq ?_ ?_
      · rw [processes, category.maxConcurrency_defaultLimits]
      · rw [timeout, category.timeout_defaultLimits]
  | true =>
      rw [if_pos rfl]
      refine WordLimits.limits_eq ?_ ?_
      · rw [maxConcurrency_limitsFor configurable, ← map_toNat_positiveWord?, ← processes]
        cases positiveWord? (settings.sessionLimits category) <;> rfl
      · rw [timeout_limitsFor configurable, ← map_toNat_positiveWord?, ← timeout]
        cases positiveWord? (settings.timeoutMinutes category) with
        | none => rfl
        | some minutes =>
            simp only [Option.map_some, Option.getD_some, toNat_mostSeconds, minutesBudget]

end Settings

end Turnstile
