import Mathlib.Data.List.Nodup
import Turnstile.Endpoint.Resolve

/-!
# The servers of a pool

Which servers settings put into a pool, and whether the pool holds one of them
twice.  Automatic servers have the ports that are counted on from the first, for
which there is a formula; configured ones are as far apart as the entries that
name them.
-/

namespace Turnstile

namespace Endpoint

instance (first second : Endpoint) : Decidable (first.SameAddress second) :=
  inferInstanceAs (Decidable (_ ∧ _))

/-- No two of these endpoints name one server. -/
def Apart (endpoints : List Endpoint) : Prop :=
  endpoints.Pairwise fun first second => ¬ first.SameAddress second

instance (endpoints : List Endpoint) : Decidable (Apart endpoints) :=
  inferInstanceAs (Decidable (List.Pairwise _ _))

theorem SameAddress.symm {first second : Endpoint} (same : first.SameAddress second) :
    second.SameAddress first :=
  ⟨same.1.symm, same.2.symm⟩

/-- In a list of endpoints that are apart, one server stands at one place. -/
theorem Apart.eq_of_sameAddress {endpoints : List Endpoint} (apart : Apart endpoints)
    {i j : Nat} {first second : Endpoint} (one : endpoints[i]? = some first)
    (other : endpoints[j]? = some second) (same : first.SameAddress second) : i = j := by
  obtain ⟨bound, rfl⟩ := List.getElem?_eq_some_iff.mp one
  obtain ⟨limit, rfl⟩ := List.getElem?_eq_some_iff.mp other
  have apart := List.pairwise_iff_getElem.mp apart
  rcases Nat.lt_trichotomy i j with before | rfl | after
  · exact absurd same (apart i j bound limit before)
  · rfl
  · exact absurd same.symm (apart j i limit bound after)

/-! ## Counting on -/

theorem lt_of_nextPort?_eq_none {port : UInt16} (ended : nextPort? port = none) :
    UInt16.size ≤ port.toNat + portStride := by
  rw [nextPort?] at ended
  split at ended
  · cases ended
  · omega

theorem portsFrom_of_some {port next : UInt16} (found : nextPort? port = some next) :
    portsFrom port = port :: portsFrom next := by
  rw [portsFrom]
  split
  · rename_i other same
    rw [Option.some.inj (found.symm.trans same)]
  · rename_i ended
    rw [found] at ended
    cases ended

theorem portsFrom_of_none {port : UInt16} (ended : nextPort? port = none) :
    portsFrom port = [port] := by
  rw [portsFrom]
  split
  · rename_i next found
    rw [ended] at found
    cases found
  · rfl

/-- The ports from one on are a stride apart, and reach as far as 16 bits do. -/
theorem map_toNat_portsFrom (port : UInt16) :
    (portsFrom port).map UInt16.toNat =
      List.range' port.toNat ((65535 - port.toNat) / portStride + 1) portStride := by
  induction port using portsFrom.induct with
  | case1 port next found ih =>
      have above := toNat_of_nextPort? found
      have bound := next.toNat_lt
      have fewer : (65535 - port.toNat) / portStride = (65535 - next.toNat) / portStride + 1 := by
        simp only [portStride] at *
        omega
      rw [portsFrom_of_some found, fewer, List.range'_succ, ← above, ← ih]
      rfl
  | case2 port ended =>
      have last : (65535 - port.toNat) / portStride = 0 := by
        have far := lt_of_nextPort?_eq_none ended
        simp only [portStride, UInt16.size] at *
        omega
      rw [portsFrom_of_none ended, last]
      rfl

/-! ## Automatic servers -/

/-- How many automatic servers there are ports for. -/
def portCount : Nat := (65535 - defaultPort.toNat) / portStride + 1

/-- The `index`-th automatic server. -/
def automatic (index : Nat) : Endpoint :=
  plain defaultHost (.ofNat (defaultPort.toNat + portStride * index))

/-- The ports of the automatic servers fit into 16 bits. -/
theorem toNat_port_automatic {index : Nat} (bound : index < portCount) :
    (automatic index).port.toNat = defaultPort.toNat + portStride * index := by
  refine UInt16.toNat_ofNat_of_lt' ?_
  change index < (65535 - 2003) / 2 + 1 at bound
  change 2003 + 2 * index < 65536
  omega

theorem portsFrom_defaultPort :
    portsFrom defaultPort = (List.range portCount).map fun index => (automatic index).port := by
  refine List.map_injective_iff.mpr (fun _ _ => UInt16.toNat_inj.mp) ?_
  rw [map_toNat_portsFrom, List.map_map]
  refine List.ext_getElem ?_ ?_
  · rw [List.length_range', List.length_map, List.length_range]
    rfl
  · intro index _ bound
    rw [List.length_map, List.length_range] at bound
    rw [List.getElem_range', List.getElem_map, List.getElem_range]
    exact (toNat_port_automatic bound).symm

/-- The servers of an automatic pool and its warnings in one formula. -/
theorem automaticList_eq (sessions : Nat) :
    automaticList sessions =
      ((List.range (min sessions portCount)).map automatic,
        if portCount < sessions then [.outOfPorts] else []) := by
  have endpoints : ((portsFrom defaultPort).take sessions).map (plain defaultHost) =
      (List.range (min sessions portCount)).map automatic := by
    rw [portsFrom_defaultPort, ← List.map_take, List.take_range, List.map_map]
    rfl
  have few : min sessions portCount < sessions ↔ portCount < sessions := by omega
  simp only [automaticList, endpoints, List.length_map, List.length_range, few]

theorem mem_automaticList {sessions : Nat} {server : Endpoint} :
    server ∈ (automaticList sessions).1 ↔
      ∃ index < min sessions portCount, automatic index = server := by
  simp only [automaticList_eq, List.mem_map, List.mem_range]

theorem length_automaticList (sessions : Nat) :
    (automaticList sessions).1.length = min sessions portCount := by
  simp only [automaticList_eq, List.length_map, List.length_range]

/-- The port of a server grows with its place, and 16 bits hold it. -/
theorem map_toNat_port_automaticList (sessions : Nat) :
    (automaticList sessions).1.map (fun endpoint => endpoint.port.toNat) =
      (List.range (min sessions portCount)).map fun index =>
        defaultPort.toNat + portStride * index := by
  rw [automaticList_eq, List.map_map]
  refine List.map_congr_left fun index member => ?_
  exact toNat_port_automatic (Nat.lt_min.mp (List.mem_range.mp member)).2

theorem pairwise_port_automaticList (sessions : Nat) :
    ((automaticList sessions).1.map Endpoint.port).Pairwise (· < ·) := by
  have numbers : ((automaticList sessions).1.map fun endpoint => endpoint.port.toNat).Pairwise
      (· < ·) := by
    rw [map_toNat_port_automaticList]
    refine List.pairwise_map.mpr (List.pairwise_lt_range.imp ?_)
    intro first second before
    simp only [portStride]
    omega
  rw [List.pairwise_map] at numbers ⊢
  exact numbers.imp UInt16.lt_iff_toNat_lt.mpr

theorem apart_automaticList (sessions : Nat) : Apart (automaticList sessions).1 := by
  refine List.Pairwise.imp ?_ (List.pairwise_map.mp (pairwise_port_automaticList sessions))
  intro first second before same
  exact UInt16.ne_of_lt before same.2

theorem automaticList_ne_nil {sessions : Nat} (some : 0 < sessions) :
    (automaticList sessions).1 ≠ [] := by
  refine List.ne_nil_of_length_pos ?_
  rw [length_automaticList]
  exact Nat.lt_min.mpr ⟨some, Nat.succ_pos _⟩

end Endpoint

/-! ## Settings -/

namespace Settings

/-- Of the entries that are configured for the pool, no two usable ones name one server. -/
def NamesApart (settings : Settings) : Prop :=
  Endpoint.Apart (Endpoint.configuredList settings.pool.endpoints).1

instance (settings : Settings) : Decidable settings.NamesApart :=
  inferInstanceAs (Decidable (Endpoint.Apart _))

end Settings

namespace Endpoint

variable {settings : Settings}

/-- The servers of a pool, by the way they are chosen. -/
theorem resolve_eq (enabled : settings.poolEnabled = true) :
    settings.autoPool = true ∧
        (resolve settings).1 =
          (automaticList (settings.limitsFor .libreOffice).maxConcurrency).1 ∨
      settings.autoPool = false ∧
        ((configuredList settings.pool.endpoints).1 = [] ∧ (resolve settings).1 = [fallback] ∨
          (configuredList settings.pool.endpoints).1 ≠ [] ∧
            (resolve settings).1 = (configuredList settings.pool.endpoints).1) := by
  cases auto : settings.autoPool with
  | true => exact .inl ⟨rfl, by simp [resolve, enabled, auto]⟩
  | false =>
      refine .inr ⟨rfl, ?_⟩
      by_cases empty : (configuredList settings.pool.endpoints).1 = []
      · exact .inl ⟨empty, by simp [resolve, enabled, auto, empty]⟩
      · refine .inr ⟨empty, ?_⟩
        simp only [resolve, enabled, auto, Bool.not_true, Bool.false_eq_true, if_false,
          List.isEmpty_iff, empty]
        split <;> rfl

theorem resolve_ne_nil (enabled : settings.poolEnabled = true) : (resolve settings).1 ≠ [] := by
  rcases resolve_eq enabled with ⟨_, same⟩ | ⟨_, ⟨_, same⟩ | ⟨some, same⟩⟩ <;> rw [same]
  · exact automaticList_ne_nil (settings.limitsFor .libreOffice).positive
  · exact List.cons_ne_nil _ _
  · exact some

/-- Settings put one server into the pool twice only if their entries do. -/
theorem apart_resolve (enabled : settings.poolEnabled = true)
    (apart : settings.autoPool = false → settings.NamesApart) : Apart (resolve settings).1 := by
  rcases resolve_eq enabled with ⟨_, same⟩ | ⟨manual, ⟨_, same⟩ | ⟨_, same⟩⟩ <;> rw [same]
  · exact apart_automaticList _
  · exact List.pairwise_singleton _ _
  · exact apart manual

end Endpoint

end Turnstile
