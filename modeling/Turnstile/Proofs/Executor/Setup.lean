import Mathlib.Data.List.Induction
import Turnstile.Executor
import Turnstile.Proofs.Endpoint.Resolve
import Turnstile.Proofs.Settings.Limits

/-!
# The choices before an executor is built

What an executor is made from is chosen piece by piece, and of two choices of one piece
the later counts.  The gates follow every choice of limits.  The number of servers in an
automatic pool follows the settings alone, also where other limits stand at the gate.
-/

namespace Turnstile

open Settings (positive?)

namespace Setup

/-- A choice that is made before an executor is built. -/
inductive Choice where
  | settings (settings : Settings)
  | allowed (allowed : Allowlist)
  | limits (category : Category) (limits : Limits)
  /-- Servers to pool in place of those that the settings lead to. -/
  | endpoints (endpoints : List Endpoint)
  /-- How paths are looked at, which matters only when a run starts. -/
  | probe (probe : String → PathKind)
  /-- Where lines of output go, which an executor does not learn. -/
  | sink

namespace Choice

def endpoints? : Choice → Option (List Endpoint)
  | .endpoints servers => some servers
  | _ => none

/-- The limits that are chosen for a category. -/
def limitsFor? (category : Category) : Choice → Option Limits
  | .limits other chosen => if category = other then some chosen else none
  | _ => none

end Choice

def choose (setup : Setup) : Choice → Setup
  | .settings settings => { setup with settings }
  | .allowed allowed => { setup with allowed }
  | .limits category limits => { setup with overrides := setup.overrides ++ [(category, limits)] }
  | .endpoints endpoints => { setup with endpoints := some endpoints }
  | .probe _ => setup
  | .sink => setup

def chosen (choices : List Choice) : Setup :=
  choices.foldl choose {}

/-- The limits that were chosen last for a category. -/
def lastLimits? (choices : List Choice) (category : Category) : Option Limits :=
  (choices.filterMap (Choice.limitsFor? category)).getLast?

/-! ## The last choice counts -/

theorem chosen_concat (choices : List Choice) (choice : Choice) :
    chosen (choices ++ [choice]) = (chosen choices).choose choice :=
  List.foldl_concat ..

/-- Of all that says anything, the last counts. -/
theorem getLast?_filterMap_concat {α β : Type} (named : α → Option β) (xs : List α) (x : α) :
    ((xs ++ [x]).filterMap named).getLast? = (named x).or (xs.filterMap named).getLast? := by
  rw [List.filterMap_append, List.getLast?_append]
  cases said : named x <;> simp [said]

/-- What every choice replaces, if it says anything of it, is as the last choice has it. -/
theorem part_chosen {α : Type} (part : Setup → Option α) {named : Choice → Option α}
    (unset : part {} = none)
    (replaced : ∀ setup choice, part (setup.choose choice) = (named choice).or (part setup))
    (choices : List Choice) : part (chosen choices) = (choices.filterMap named).getLast? := by
  induction choices using List.reverseRecOn with
  | nil => exact unset
  | append_singleton choices choice ih =>
      rw [chosen_concat, replaced, ih, getLast?_filterMap_concat]

theorem endpoints_chosen (choices : List Choice) :
    (chosen choices).endpoints = (choices.filterMap Choice.endpoints?).getLast? := by
  refine part_chosen endpoints rfl ?_ choices
  intro setup choice
  cases choice <;> rfl

theorem lookup_overrides_chosen (choices : List Choice) (category : Category) :
    (chosen choices).overrides.reverse.lookup category = lastLimits? choices category := by
  refine part_chosen (fun setup => setup.overrides.reverse.lookup category) rfl ?_ choices
  intro setup choice
  cases choice with
  | limits other limits =>
      simp only [choose, Choice.limitsFor?, List.reverse_append, List.reverse_singleton,
        List.singleton_append, List.lookup_cons]
      split
      · rename_i same
        rw [if_pos (beq_iff_eq.mp same), Option.some_or]
      · rename_i differs
        rw [if_neg (beq_eq_false_iff_ne.mp differs), Option.none_or]
  | _ => rfl

/-- Limits chosen for a category stand before those of the settings. -/
theorem limitsFor_chosen (choices : List Choice) (category : Category) :
    (chosen choices).limitsFor category =
      (lastLimits? choices category).getD ((chosen choices).settings.limitsFor category) := by
  rw [limitsFor, lookup_overrides_chosen]

theorem endpoints_chosen_eq_none {choices : List Choice}
    (unnamed : ∀ servers, .endpoints servers ∉ choices) : (chosen choices).endpoints = none := by
  rw [endpoints_chosen, List.getLast?_eq_none_iff, List.filterMap_eq_nil_iff]
  intro choice member
  cases choice with
  | endpoints servers => exact absurd member (unnamed servers)
  | _ => rfl

/-! ## Servers and permits -/

theorem maxConcurrency_libreOffice (settings : Settings) :
    (settings.limitsFor .libreOffice).maxConcurrency =
      (positive? (settings.sessionLimits .libreOffice)).getD 1 :=
  Settings.maxConcurrency_limitsFor rfl

/-- A gate holds more permits than there are ports for servers. -/
theorem min_capacity_build (setup : Setup) (category : Category) :
    min (setup.build.gates category).capacity Endpoint.portCount =
      min (setup.limitsFor category).maxConcurrency Endpoint.portCount := by
  have fits : Endpoint.portCount ≤ Gate.maxCapacity := by decide
  change min (min _ Gate.maxCapacity) Endpoint.portCount = _
  rw [Nat.min_assoc, Nat.min_eq_right fits]

theorem size_build {setup : Setup} (unnamed : setup.endpoints = none)
    (enabled : setup.settings.poolEnabled = true) (auto : setup.settings.autoPool = true) :
    setup.build.pool.size =
      min (setup.settings.limitsFor .libreOffice).maxConcurrency Endpoint.portCount := by
  have resolved : setup.resolved = Endpoint.resolve setup.settings := by
    rw [Setup.resolved, unnamed]
  obtain ⟨-, automatic⟩ := (Endpoint.resolve_eq enabled).resolve_right (by simp [auto])
  change (setup.resolved.1.map Slot.of).length = _
  rw [List.length_map, resolved, automatic, Endpoint.length_automaticList]

/--
An automatic pool has as many servers as the settings grant sessions, as far as there are
ports.  That is one for each permit of the gate exactly if the limits that were chosen for
the category, if any were, grant as many.
-/
theorem automatic_servers {choices : List Choice}
    (unnamed : ∀ servers, .endpoints servers ∉ choices)
    (enabled : (chosen choices).settings.poolEnabled = true)
    (auto : (chosen choices).settings.autoPool = true) :
    (chosen choices).build.pool.size =
        min ((positive? ((chosen choices).settings.sessionLimits .libreOffice)).getD 1)
          Endpoint.portCount ∧
      ((chosen choices).build.pool.size =
          min ((chosen choices).build.gates .libreOffice).capacity Endpoint.portCount ↔
        ∀ limits, lastLimits? choices .libreOffice = some limits →
          min limits.maxConcurrency Endpoint.portCount =
            min ((positive? ((chosen choices).settings.sessionLimits .libreOffice)).getD 1)
              Endpoint.portCount) := by
  have size := size_build (endpoints_chosen_eq_none unnamed) enabled auto
  rw [min_capacity_build, limitsFor_chosen, size, ← maxConcurrency_libreOffice]
  refine ⟨rfl, ?_⟩
  cases lastLimits? choices .libreOffice with
  | none => simp
  | some limits => simp [eq_comm]

/-- Settings with four sessions, chosen after limits of another category. -/
def fourSessions : List Choice :=
  [.limits .ffmpeg (.of 5 (.ofSeconds 9)),
    .settings { sessionLimits := CategoryTable.empty.insert .libreOffice 4 }]

/-- Four sessions make four permits and four servers. -/
theorem automatic_servers_four :
    (∀ servers, Choice.endpoints servers ∉ fourSessions) ∧
      (chosen fourSessions).settings.poolEnabled = true ∧
        (chosen fourSessions).settings.autoPool = true ∧
          (chosen fourSessions).build.pool.size = 4 ∧
            (chosen fourSessions).build.pool.size =
              min ((chosen fourSessions).build.gates .libreOffice).capacity Endpoint.portCount := by
  have unnamed : ∀ servers, Choice.endpoints servers ∉ fourSessions := by simp [fourSessions]
  have servers := automatic_servers unnamed rfl rfl
  exact ⟨unnamed, rfl, rfl, servers.1, servers.2.mpr nofun⟩

/-- Limits for three office processes, and settings as they are without a file. -/
def threePermits : List Choice :=
  [.limits .libreOffice (.of 3 (.ofSeconds 8))]

/-- Three permits that were chosen leave the pool with one server. -/
theorem permits_without_server :
    (∀ servers, Choice.endpoints servers ∉ threePermits) ∧
      (chosen threePermits).settings.poolEnabled = true ∧
        (chosen threePermits).settings.autoPool = true ∧
          min ((chosen threePermits).build.gates .libreOffice).capacity Endpoint.portCount = 3 ∧
            (chosen threePermits).build.pool.size = 1 := by
  exact ⟨by simp [threePermits], rfl, rfl, by decide, size_build rfl rfl rfl⟩

end Setup

end Turnstile
