import Turnstile.Proofs.Settings.Words

/-!
# Budgets in minutes

Minutes become seconds in two ways.  Limits that are given in minutes multiply in a word,
and a product that is too large is a panic; settings take the largest word in its place.  The
two agree as far as a word can hold the seconds, and past that only settings grant anything.
-/

namespace Turnstile

variable {minutes : UInt64}

/-- The most minutes whose seconds a word can hold. -/
def longestMinutes : Nat := 307445734561825860

/-! ## Seconds in settings -/

theorem min_seconds_of_le {number : Nat} (short : number ≤ longestMinutes) :
    min (60 * number) 18446744073709551615 = 60 * number := by
  rw [longestMinutes] at short
  exact Nat.min_eq_left (by omega)

namespace Settings

/-- Settings give so many minutes, at least one, to a category whose limits they replace. -/
structure Allots (settings : Settings) (category : Category) (number : Nat) : Prop where
  configurable : category.isConfigurable = true
  written : ∃ word, settings.timeoutMinutes category = some word ∧ word.toInt = number
  positive : 0 < number

namespace Allots

variable {settings other : Settings} {category place : Category} {number more : Nat}

theorem timeout_eq (allots : settings.Allots category number) :
    (settings.limitsFor category).timeout =
      .ofSeconds (min (60 * number) 18446744073709551615) := by
  obtain ⟨word, written, value⟩ := allots.written
  have positive : 0 < word.toInt := by
    have some := allots.positive
    omega
  rw [timeout_limitsFor_of_pos allots.configurable written positive, value, Int.toNat_natCast]

/-- More minutes are not less time. -/
theorem timeout_le (allots : settings.Allots category number) (larger : other.Allots place more)
    (le : number ≤ more) :
    (settings.limitsFor category).timeout ≤ (other.limitsFor place).timeout := by
  rw [allots.timeout_eq, larger.timeout_eq, Time.ofSeconds_le_ofSeconds]
  omega

end Allots

end Settings

namespace Limits

variable {processes : Nat} {limits : Limits}

theorem ofMinutes?_eq_none_iff :
    ofMinutes? processes minutes = none ↔ longestMinutes < minutes.toNat := by
  have size : UInt64.size = 18446744073709551616 := rfl
  rw [ofMinutes?, Option.map_eq_none_iff, seconds?_eq_none_iff, longestMinutes]
  omega

theorem of_ofMinutes? (found : ofMinutes? processes minutes = some limits) :
    minutes.toNat ≤ longestMinutes ∧ limits.maxConcurrency = max processes 1 ∧
      limits.timeout = .ofSeconds (60 * minutes.toNat) := by
  refine ⟨?_, ?_⟩
  · refine Nat.le_of_not_lt fun long => ?_
    rw [ofMinutes?_eq_none_iff.mpr long] at found
    cases found
  · obtain ⟨seconds, product, rfl⟩ := Option.map_eq_some_iff.mp found
    refine ⟨rfl, congrArg Time.ofSeconds ?_⟩
    rw [seconds?_eq_some_iff.mp product, Nat.mul_comm]

theorem exists_ofMinutes? (processes : Nat) (short : minutes.toNat ≤ longestMinutes) :
    ∃ limits, ofMinutes? processes minutes = some limits := by
  cases found : ofMinutes? processes minutes with
  | some limits => exact ⟨limits, rfl⟩
  | none => exact absurd (ofMinutes?_eq_none_iff.mp found) (Nat.not_lt.mpr short)

theorem timeout_of_ofMinutes? (found : ofMinutes? processes minutes = some limits) :
    limits.timeout = .ofSeconds (min (60 * minutes.toNat) 18446744073709551615) := by
  obtain ⟨short, -, timeout⟩ := of_ofMinutes? found
  rw [min_seconds_of_le short, timeout]

/-- Where there are limits for some minutes, there are limits for fewer, with no more time. -/
theorem exists_ofMinutes?_le {fewer : UInt64} (other : Nat) (le : fewer ≤ minutes)
    (found : ofMinutes? processes minutes = some limits) :
    ∃ shorter, ofMinutes? other fewer = some shorter ∧ shorter.timeout ≤ limits.timeout := by
  rw [UInt64.le_iff_toNat_le] at le
  obtain ⟨short, -, timeout⟩ := of_ofMinutes? found
  obtain ⟨shorter, same⟩ := exists_ofMinutes? other (Nat.le_trans le short)
  refine ⟨shorter, same, ?_⟩
  rw [(of_ofMinutes? same).2.2, timeout, Time.ofSeconds_le_ofSeconds]
  exact Nat.mul_le_mul_left 60 le

/-! ## Limits in minutes and limits from settings -/

/-- What limits in minutes grant, beside what settings grant for as many minutes. -/
structure Budgeted (processes : Nat) (minutes : UInt64) : Prop where
  /-- Without a panic there are limits exactly as far as a word can hold the seconds. -/
  found : (∃ limits, ofMinutes? processes minutes = some limits) ↔
    minutes.toNat ≤ longestMinutes
  admitted : ∀ limits, ofMinutes? processes minutes = some limits →
    limits.maxConcurrency = max processes 1
  /-- Sixty seconds for each minute. -/
  budget : ∀ limits, ofMinutes? processes minutes = some limits →
    limits.timeout = .ofSeconds (min (60 * minutes.toNat) 18446744073709551615)
  /-- Settings grant as many, or as many as a word counts. -/
  settings : ∀ (settings : Settings) (category : Category),
    settings.Allots category minutes.toNat →
      (settings.limitsFor category).timeout =
          .ofSeconds (min (60 * minutes.toNat) 18446744073709551615) ∧
        ∀ limits, ofMinutes? processes minutes = some limits →
          limits.timeout = (settings.limitsFor category).timeout
  /-- More minutes are never less time, in limits and in settings. -/
  rises : ∀ (other : Nat) (fewer : UInt64) (limits : Limits), fewer ≤ minutes →
    ofMinutes? processes minutes = some limits →
      ∃ shorter, ofMinutes? other fewer = some shorter ∧ shorter.timeout ≤ limits.timeout
  risesInSettings : ∀ (settings other : Settings) (category place : Category) (fewer : Nat),
    settings.Allots category fewer → other.Allots place minutes.toNat →
      fewer ≤ minutes.toNat →
        (settings.limitsFor category).timeout ≤ (other.limitsFor place).timeout

/--
Limits in minutes grant sixty seconds for each, as settings do, exactly as far as a word can
hold the seconds; for more minutes there are none, where settings grant what a word counts.
-/
theorem budgeted_ofMinutes (processes : Nat) (minutes : UInt64) :
    Budgeted processes minutes where
  found := by
    constructor
    · rintro ⟨limits, found⟩
      exact (of_ofMinutes? found).1
    · exact exists_ofMinutes? processes
  admitted _ found := (of_ofMinutes? found).2.1
  budget _ := timeout_of_ofMinutes?
  settings := by
    intro settings category allots
    rw [allots.timeout_eq]
    exact ⟨rfl, fun _ => timeout_of_ofMinutes?⟩
  rises other _ _ le found := exists_ofMinutes?_le other le found
  risesInSettings := fun _ _ _ _ _ allots larger le => allots.timeout_le larger le

/-- Settings with one minute more for a category than a word can hold the seconds of. -/
def endless : Settings where
  timeoutMinutes := CategoryTable.empty.insert .qpdf 307445734561825861

/-- One minute too many has no limits, where settings grant all that a word counts. -/
theorem minutes_overflow :
    endless.Allots .qpdf (307445734561825861 : UInt64).toNat ∧
      (endless.limitsFor .qpdf).timeout =
          .ofSeconds (min (60 * (307445734561825861 : UInt64).toNat) 18446744073709551615) ∧
        ofMinutes? 1 307445734561825861 = none ∧
          ∃ limits, ofMinutes? 1 307445734561825860 = some limits ∧
            limits.timeout = .ofSeconds 18446744073709551600 := by
  have allots : endless.Allots .qpdf (307445734561825861 : UInt64).toNat :=
    ⟨rfl, ⟨_, rfl, by decide⟩, by decide⟩
  exact ⟨allots, allots.timeout_eq, rfl, _, rfl, rfl⟩

end Limits

end Turnstile
