import Mathlib.Tactic.Choose
import Turnstile.Proofs.Executor.Setup
import Turnstile.Proofs.Settings.Words

/-!
# The gates of an executor

What a gate grants: the limits that were chosen last for its category, or else what the
settings say, or else what is built in, and nothing that is said of another category.  The
gates may be made in machine words, in a list with a place for each category; nothing is
then too large or out of place.
-/

namespace Turnstile

namespace Category

theorem getElem?_all_index (category : Category) : all[category.index]? = some category :=
  List.getElem?_idxOf category.mem_all

theorem index_inj {category other : Category} :
    category.index = other.index ↔ category = other :=
  List.idxOf_inj category.mem_all

end Category

/-! ## Places -/

namespace WordLimits

/-- Every category finds the words for its limits at its place. -/
def Holds (rows : List WordLimits) (limitsFor : Category → Limits) : Prop :=
  ∀ category, (rows[category.index]?).map limits = some (limitsFor category)

/-- Puts limits in the place of a category, if there is such a place. -/
def put? (rows : List WordLimits) (item : Category × WordLimits) : Option (List WordLimits) :=
  if item.1.index < rows.length then some (rows.set item.1.index item.2) else none

variable {rows : List WordLimits} {limitsFor : Category → Limits}

theorem Holds.index_lt (holds : Holds rows limitsFor) (category : Category) :
    category.index < rows.length := by
  obtain ⟨words, found, -⟩ := Option.map_eq_some_iff.mp (holds category)
  exact (List.getElem?_eq_some_iff.mp found).1

/-- Limits that are put in the place of a category count for it, and for no other. -/
theorem Holds.put (holds : Holds rows limitsFor) (target : Category) (words : WordLimits) :
    ∃ later, put? rows (target, words) = some later ∧
      Holds later (Function.update limitsFor target words.limits) := by
  refine ⟨_, if_pos (holds.index_lt target), fun category => ?_⟩
  rw [List.getElem?_set, if_pos (holds.index_lt target)]
  by_cases same : category = target
  · rw [same, if_pos rfl, Function.update_self]
    rfl
  · rw [if_neg (mt Category.index_inj.mp (Ne.symm same)), Function.update_of_ne same]
    exact holds category

/-- Of limits that are put in place one after the other, the last for a category count. -/
theorem Holds.putAll (holds : Holds rows limitsFor) (items : List (Category × WordLimits)) :
    ∃ later, items.foldlM put? rows = some later ∧
      Holds later fun category =>
        ((items.reverse.lookup category).map limits).getD (limitsFor category) := by
  induction items using List.reverseRecOn with
  | nil => exact ⟨rows, rfl, holds⟩
  | append_singleton items item ih =>
      obtain ⟨target, words⟩ := item
      obtain ⟨before, run, held⟩ := ih
      obtain ⟨later, step, holds⟩ := held.put target words
      refine ⟨later, ?_, fun category => ?_⟩
      · rw [List.foldlM_append, run]
        simpa using step
      · rw [holds category, List.reverse_append, List.reverse_singleton, List.singleton_append]
        simp only [Function.update_apply, List.lookup_cons]
        by_cases same : category = target
        · simp [same]
        · simp [same, beq_false_of_ne]

/-- Settings have limits for the place of every category. -/
theorem exists_holds (settings : Settings) :
    ∃ rows, Category.all.mapM settings.words? = some rows ∧ Holds rows settings.limitsFor := by
  choose words found same using settings.exists_words
  refine ⟨Category.all.map words, ?_, ?_⟩
  · rw [funext found]
    exact List.mapM_pure
  · intro category
    rw [List.getElem?_map, category.getElem?_all_index, Option.map_some, Option.map_some, same]

end WordLimits

/-! ## Gates in machine words -/

namespace Gate

variable {ι : Type}

/-- A gate with as many permits as there may be processes, but no more than a semaphore takes. -/
def ofWords? (category : Category) (words : WordLimits) : Option (Gate ι) :=
  let permits : UInt64 := max 1 (min words.processes (.ofNat maxCapacity))
  if permits.toNat ≤ maxCapacity then
    some {
      category
      limits := .of permits.toNat words.timeout
      semaphore := { free := permits.toNat } }
  else none

theorem ofWords?_eq (category : Category) (words : WordLimits) :
    ofWords? category words = some (of category words.limits : Gate ι) := by
  have largest : (UInt64.ofNat maxCapacity).toNat = maxCapacity := by decide
  have permits : (max 1 (min words.processes (.ofNat maxCapacity))).toNat =
      (fitting words.limits).maxConcurrency := by
    rw [UInt64.toNat_max, UInt64.toNat_min, largest]
    change max 1 (min _ maxCapacity) = min (max _ 1) maxCapacity
    have positive : 1 ≤ maxCapacity := by decide
    omega
  have fits : (fitting words.limits).maxConcurrency ≤ maxCapacity := Nat.min_le_right _ _
  have same : Limits.of (fitting words.limits).maxConcurrency words.timeout =
      fitting words.limits :=
    Limits.ext (Nat.max_eq_left (fitting words.limits).positive) rfl
  simp only [ofWords?, permits, if_pos fits, same, of]

theorem capacity_of (category : Category) (limits : Limits) :
    (of category limits : Gate ι).capacity = min limits.maxConcurrency maxCapacity :=
  rfl

/--
The gate grants what settings say, and what is built in where they say nothing that counts.
A semaphore has no more than 2^61 - 1 permits, and a word counts no more than 2^64 - 1 seconds.
-/
structure Follows (settings : Settings) (category : Category) (gate : Gate ι) : Prop where
  sessions : ∀ word, category.isConfigurable = true →
    settings.sessionLimits category = some word → 0 < word.toInt →
      gate.capacity = min word.toInt.toNat 2305843009213693951
  minutes : ∀ word, category.isConfigurable = true →
    settings.timeoutMinutes category = some word → 0 < word.toInt →
      gate.limits.timeout = .ofSeconds (min (60 * word.toInt.toNat) 18446744073709551615)
  builtInSessions :
    (category.isConfigurable = true →
      ∀ word, settings.sessionLimits category = some word → word.toInt ≤ 0) →
        gate.capacity = category.builtIn.1
  builtInMinutes :
    (category.isConfigurable = true →
      ∀ word, settings.timeoutMinutes category = some word → word.toInt ≤ 0) →
        gate.limits.timeout = .ofSeconds (60 * category.builtIn.2.toNat)

theorem follows_of (settings : Settings) (category : Category) :
    Follows settings category (of category (settings.limitsFor category) : Gate ι) where
  sessions := by
    intro word configurable written positive
    rw [capacity_of, Settings.maxConcurrency_limitsFor configurable, written,
      Settings.positive?_of_pos positive]
    rfl
  minutes := by
    intro word configurable written positive
    exact Settings.timeout_limitsFor_of_pos configurable written positive
  builtInSessions := by
    intro unsaid
    have fits : min category.builtIn.1 maxCapacity = category.builtIn.1 := by
      cases category <;> rfl
    rw [capacity_of]
    cases configurable : category.isConfigurable with
    | false =>
        rwa [Settings.limitsFor_of_fixed configurable, category.maxConcurrency_defaultLimits]
    | true =>
        rwa [Settings.maxConcurrency_limitsFor configurable,
          Settings.positive?_of_not_pos (unsaid configurable)]
  builtInMinutes := by
    intro unsaid
    change (settings.limitsFor category).timeout = _
    cases configurable : category.isConfigurable with
    | false => rw [Settings.limitsFor_of_fixed configurable, category.timeout_defaultLimits]
    | true =>
        rw [Settings.timeout_limitsFor configurable,
          Settings.positive?_of_not_pos (unsaid configurable)]
        rfl

end Gate

namespace Setup

/-- The gates that are made in machine words, each in the place of its category. -/
def gates? (settings : Settings) (overrides : List (Category × WordLimits)) :
    Option (List (Gate Ticket)) := do
  let rows ← Category.all.mapM settings.words?
  let later ← overrides.foldlM WordLimits.put? rows
  (Category.all.zip later).mapM fun item => Gate.ofWords? item.1 item.2

/-- Every gate is made, and it stands in its place. -/
theorem exists_gates (settings : Settings) (overrides : List (Category × WordLimits)) :
    ∃ table, gates? settings overrides = some table ∧
      ∀ category : Category, table[category.index]? = some (.of category
        (((overrides.reverse.lookup category).map WordLimits.limits).getD
          (settings.limitsFor category))) := by
  obtain ⟨rows, read, settled⟩ := WordLimits.exists_holds settings
  obtain ⟨later, put, holds⟩ := settled.putAll overrides
  refine ⟨(Category.all.zip later).map fun item => .of item.1 item.2.limits, ?_, ?_⟩
  · rw [gates?, read]
    simp only [Option.bind_eq_bind, Option.bind_some, put, Gate.ofWords?_eq]
    exact List.mapM_pure
  · intro category
    obtain ⟨words, found, same⟩ := Option.map_eq_some_iff.mp (holds category)
    have place : (Category.all.zip later)[category.index]? = some (category, words) :=
      List.getElem?_zip_eq_some.mpr ⟨category.getElem?_all_index, found⟩
    rw [List.getElem?_map, place, Option.map_some, same]

namespace Choice

def settings? : Choice → Option Settings
  | .settings given => some given
  | _ => none

/-- The limits that are chosen, as machine words. -/
def words? : Choice → Option (Category × WordLimits)
  | .limits category given => some (category, .ofLimits given)
  | _ => none

end Choice

/-- The settings that were chosen last, or else those that say nothing. -/
def lastSettings (choices : List Choice) : Settings :=
  ((choices.filterMap Choice.settings?).getLast?).getD {}

theorem settings_chosen (choices : List Choice) :
    (chosen choices).settings = lastSettings choices := by
  induction choices using List.reverseRecOn with
  | nil => rfl
  | append_singleton choices choice ih =>
      rw [chosen_concat, lastSettings, getLast?_filterMap_concat]
      cases choice with
      | settings given => rfl
      | _ => exact ih

theorem lookup_words (choices : List Choice) (category : Category) :
    (choices.filterMap Choice.words?).reverse.lookup category =
      (lastLimits? choices category).map WordLimits.ofLimits := by
  induction choices using List.reverseRecOn with
  | nil => rfl
  | append_singleton choices choice ih =>
      rw [lastLimits?, getLast?_filterMap_concat, ← lastLimits?, List.filterMap_append,
        List.reverse_append]
      cases choice with
      | limits target given =>
          change ((target, WordLimits.ofLimits given) ::
            (choices.filterMap Choice.words?).reverse).lookup category = _
          rw [List.lookup_cons, ih, Choice.limitsFor?]
          by_cases same : category = target
          · simp [same]
          · simp [same, beq_false_of_ne]
      | _ => exact ih

/-- The limits that are chosen are numbers of 64 bits. -/
def InWords (choices : List Choice) : Prop :=
  ∀ category limits, .limits category limits ∈ choices → limits.maxConcurrency < UInt64.size

theorem InWords.of_lastLimits? {choices : List Choice} (inWords : InWords choices)
    {category : Category} {limits : Limits} (found : lastLimits? choices category = some limits) :
    limits.maxConcurrency < UInt64.size := by
  obtain ⟨choice, member, named⟩ := List.mem_filterMap.mp (List.mem_of_getLast? found)
  cases choice with
  | limits target given =>
      rw [Choice.limitsFor?] at named
      split at named
      · cases named
        exact inWords _ _ member
      · cases named
  | _ => cases named

/-- What the gate of a category is and grants after some choices. -/
structure Granted (choices : List Choice) (category : Category) : Prop where
  own : ((chosen choices).build.gates category).category = category
  /-- Limits that were chosen count, whatever else was. -/
  overridden : ∀ processes timeout,
    lastLimits? choices category = some (.of processes timeout) →
      ((chosen choices).build.gates category).capacity = max 1 (min processes 2305843009213693951) ∧
        ((chosen choices).build.gates category).limits.timeout = timeout
  settled : lastLimits? choices category = none →
    Gate.Follows (lastSettings choices) category ((chosen choices).build.gates category)
  /-- Nothing matters that is chosen or set for another category. -/
  alone : ∀ others,
    lastLimits? others category = lastLimits? choices category →
      (lastSettings others).sessionLimits category =
        (lastSettings choices).sessionLimits category →
      (lastSettings others).timeoutMinutes category =
        (lastSettings choices).timeoutMinutes category →
      (chosen others).build.gates category = (chosen choices).build.gates category
  /-- In machine words no number is too large, and the gate has a place in the list of all. -/
  counted : InWords choices → ∃ table,
    gates? (lastSettings choices) (choices.filterMap Choice.words?) = some table ∧
      table[category.index]? = some ((chosen choices).build.gates category)

theorem gates_build (choices : List Choice) (category : Category) :
    (chosen choices).build.gates category = .of category
      ((lastLimits? choices category).getD ((lastSettings choices).limitsFor category)) := by
  rw [← settings_chosen, ← limitsFor_chosen]
  rfl

/-- Whatever is chosen, every category has its own gate, and it grants what was chosen for it. -/
theorem granted_build (choices : List Choice) (category : Category) :
    Granted choices category where
  own := rfl
  overridden := by
    intro processes timeout found
    rw [gates_build, found]
    refine ⟨?_, rfl⟩
    change min (max processes 1) 2305843009213693951 = _
    omega
  settled := by
    intro unset
    rw [gates_build, unset]
    exact Gate.follows_of _ _
  alone := by
    intro others overrides sessions minutes
    rw [gates_build, gates_build, overrides, Settings.limitsFor_congr sessions minutes]
  counted := by
    intro inWords
    obtain ⟨table, made, places⟩ :=
      exists_gates (lastSettings choices) (choices.filterMap Choice.words?)
    refine ⟨table, made, ?_⟩
    rw [places category, lookup_words, gates_build]
    cases found : lastLimits? choices category with
    | none => rfl
    | some limits =>
        rw [Option.map_some, Option.map_some, Option.getD_some,
          WordLimits.limits_ofLimits (inWords.of_lastLimits? found)]
        rfl

/-- A gate takes no more permits than a semaphore has, and no fewer than one. -/
example :
    let executor := (chosen [
      .limits .qpdf (.of 3 (.ofSeconds 8)),
      .settings { sessionLimits := CategoryTable.empty.insert .weasyprint 9223372036854775807 },
      .limits .qpdf (.of 0 (.ofSeconds 9))]).build
    (executor.gates .weasyprint).capacity = 2305843009213693951 ∧
      (executor.gates .qpdf).capacity = 1 := by
  decide

end Setup

end Turnstile
