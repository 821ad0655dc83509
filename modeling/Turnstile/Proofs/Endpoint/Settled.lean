import Turnstile.Proofs.Endpoint.Usability

/-!
# Servers that are written back

What settings lead to is in order: hosts are trimmed and not blank, and ports are positive.
So the servers of a pool may be written into the settings as they are, and the settings
then lead to the same servers.
-/

namespace Turnstile

theorem RoutingHint.read?_name (hint : RoutingHint) : read? hint.name = some hint := by
  cases hint <;> decide

theorem Protocol.read?_name (protocol : Protocol) : read? protocol.name = some protocol := by
  cases protocol <;> decide

namespace Endpoint

/-- An endpoint of which nothing is replaced when it is configured. -/
structure Settled (endpoint : Endpoint) : Prop where
  trimmed : Text.trim endpoint.host = endpoint.host
  not_blank : Text.isBlankText endpoint.host = false
  port_pos : 0 < endpoint.port.toNat

theorem settled_defaultHost :
    Text.trim defaultHost = defaultHost ∧ Text.isBlankText defaultHost = false := by
  decide

theorem settled_plain {port : UInt16} (positive : 0 < port.toNat) :
    (plain defaultHost port).Settled where
  trimmed := settled_defaultHost.1
  not_blank := settled_defaultHost.2
  port_pos := positive

end Endpoint

namespace RawEndpoint

open Endpoint (Settled)

/-! ## Reading what was configured -/

theorem settled_normalHost (host : Option String) :
    Text.trim (normalHost host) = normalHost host ∧ Text.isBlankText (normalHost host) = false := by
  cases host with
  | none => exact Endpoint.settled_defaultHost
  | some text =>
      rw [normalHost_some]
      split
      · exact Endpoint.settled_defaultHost
      · rename_i some
        refine ⟨Text.trim_trim text, ?_⟩
        rwa [← Bool.not_eq_true, ← Text.trim_eq_empty_iff, Text.trim_trim]

theorem normalPort_pos (port : Option Int64) : 0 < (normalPort port).1.toNat := by
  cases port with
  | none => decide
  | some word =>
      rw [normalPort]
      split
      · decide
      · split
        · rename_i positive fits
          rw [UInt16.toNat_ofNat_of_lt' (by simp only [UInt16.size]; omega)]
          omega
        · decide

theorem settled_normalize (raw : RawEndpoint) : raw.normalize.1.Settled where
  trimmed := (settled_normalHost raw.host).1
  not_blank := (settled_normalHost raw.host).2
  port_pos := normalPort_pos raw.port

/-! ## Configuring what was read -/

variable {endpoint : Endpoint}

theorem toInt_port_ofEndpoint (port : UInt16) : (Int64.ofNat port.toNat).toInt = port.toNat :=
  Int64.toInt_ofNat_of_lt (Nat.lt_trans port.toNat_lt (by decide))

theorem normalPort_ofNat {port : UInt16} (positive : 0 < port.toNat) :
    normalPort (some (.ofNat port.toNat)) = (port, []) := by
  have bound := port.toNat_lt
  rw [normalPort, toInt_port_ofEndpoint, if_neg (by omega), if_pos (by omega), Int.toNat_natCast,
    UInt16.ofNat_toNat]

theorem usableHost?_of_settled (settled : endpoint.Settled) :
    usableHost? (some endpoint.host) = some endpoint.host := by
  have some : endpoint.host ≠ "" := by
    rw [← settled.trimmed, Ne, Text.trim_eq_empty_iff, settled.not_blank]
    decide
  rw [usableHost?, Option.map_some, settled.trimmed, Option.filter_some,
    if_pos (by simpa using some)]

theorem isUsable_ofEndpoint (settled : endpoint.Settled) :
    (ofEndpoint endpoint).isUsable = true := by
  have positive : 0 < (Int64.ofNat endpoint.port.toNat).toInt := by
    rw [toInt_port_ofEndpoint]
    exact Int.natCast_pos.mpr settled.port_pos
  simp only [isUsable, ofEndpoint, usableHost?_of_settled settled, Option.isSome_some,
    Option.any_some, positive, decide_true, Bool.and_self]

/-- Nothing is replaced, and nothing is warned about. -/
theorem normalize_ofEndpoint (settled : endpoint.Settled) :
    (ofEndpoint endpoint).normalize = (endpoint, []) := by
  simp only [normalize, ofEndpoint, normalHost, usableHost?_of_settled settled, Option.getD_some,
    normalPort_ofNat settled.port_pos, normalHint, RoutingHint.read?_name, normalProtocol,
    Protocol.read?_name, List.append_nil]

end RawEndpoint

namespace Endpoint

open RawEndpoint (ofEndpoint)

/-- Servers that are configured as they are make the same list, without a warning. -/
theorem configuredList_map_ofEndpoint {servers : List Endpoint}
    (settled : ∀ server ∈ servers, server.Settled) :
    configuredList (servers.map ofEndpoint) = (servers, []) := by
  induction servers with
  | nil => rfl
  | cons server rest ih =>
      have first := settled server List.mem_cons_self
      have others := ih fun other member => settled other (List.mem_cons_of_mem _ member)
      simp only [configuredList, Prod.mk.injEq] at others
      simp only [configuredList, List.map_cons,
        List.filter_cons_of_pos (RawEndpoint.isUsable_ofEndpoint first),
        RawEndpoint.normalize_ofEndpoint first, List.flatMap_cons, others, List.append_nil]

/-! ## The servers of a pool -/

theorem settled_resolve {settings : Settings} {server : Endpoint}
    (member : server ∈ (resolve settings).1) : server.Settled := by
  cases enabled : settings.poolEnabled with
  | false => simp [resolve, enabled] at member
  | true =>
      rcases resolve_eq enabled with ⟨_, same⟩ | ⟨_, ⟨_, same⟩ | ⟨_, same⟩⟩ <;> rw [same] at member
      · obtain ⟨index, inside, rfl⟩ := mem_automaticList.mp member
        refine settled_plain ?_
        change 0 < (automatic index).port.toNat
        rw [toNat_port_automatic (Nat.lt_min.mp inside).2]
        exact Nat.add_pos_left (by decide) _
      · rw [List.mem_singleton.mp member]
        exact settled_plain (by decide)
      · obtain ⟨_, normal, rfl⟩ := List.mem_map.mp member
        obtain ⟨raw, _, rfl⟩ := List.mem_map.mp normal
        exact raw.settled_normalize

/-- What pools that are configured by hand hold if all their entries make `servers`. -/
theorem resolve_of_configuredList {settings : Settings} {servers : List Endpoint}
    (enabled : settings.poolEnabled = true) (manual : settings.autoPool = false)
    (some : servers ≠ []) (made : configuredList settings.pool.endpoints = (servers, [])) :
    resolve settings = (servers,
      if servers.length = (settings.limitsFor .libreOffice).maxConcurrency then []
      else [.countDiffersFromLimit]) := by
  simp only [resolve, enabled, manual, made, Bool.not_true, Bool.false_eq_true, if_false,
    List.isEmpty_iff, some, List.nil_append, ne_eq, ite_not]
  split <;> rfl

/--
The servers of a pool are in order, and settings that list them by hand lead to the same
servers.  Each is read as it was written, and only their number may be warned about.
-/
theorem resolve_written {settings later : Settings} (enabled : settings.poolEnabled = true)
    (pooled : later.poolEnabled = true) (manual : later.autoPool = false)
    (written : later.pool.endpoints = (resolve settings).1.map ofEndpoint) :
    (resolve settings).1 ≠ [] ∧
      (∀ server ∈ (resolve settings).1, server.Settled ∧ (ofEndpoint server).isUsable = true ∧
        (ofEndpoint server).normalize = (server, [])) ∧
      resolve later = ((resolve settings).1,
        if (resolve settings).1.length = (later.limitsFor .libreOffice).maxConcurrency then []
        else [.countDiffersFromLimit]) := by
  have settled : ∀ server ∈ (resolve settings).1, server.Settled := fun _ => settled_resolve
  refine ⟨resolve_ne_nil enabled, ?_, ?_⟩
  · intro server member
    have inOrder := settled server member
    exact ⟨inOrder, RawEndpoint.isUsable_ofEndpoint inOrder,
      RawEndpoint.normalize_ofEndpoint inOrder⟩
  · refine resolve_of_configuredList pooled manual (resolve_ne_nil enabled) ?_
    rw [written]
    exact configuredList_map_ofEndpoint settled

/-- Entries in need of repair: blanks, a port that is too large, and one that names no server. -/
def untidy : Settings where
  pool := {
    auto := some false
    endpoints := [
      { host := some " office\t", port := some 70000, hint := some "Remote ",
        protocol := some "HTTPS" },
      { host := some "  ", port := some 2005 },
      { host := some "10.0.0.2", port := some 2009, hint := some "sideways" }] }

/-- The same servers as they are, without limits of their own. -/
def tidied : Settings where
  pool := { auto := some false, endpoints := (resolve untidy).1.map ofEndpoint }

/-- Two of three entries are kept in order, and stay as they are when they are written back. -/
theorem resolve_written_untidy :
    untidy.poolEnabled = true ∧ tidied.poolEnabled = true ∧ tidied.autoPool = false ∧
      tidied.pool.endpoints = (resolve untidy).1.map ofEndpoint ∧
        resolve tidied = ([⟨"office", 2003, .remote, .https⟩, plain "10.0.0.2" 2009],
          [.countDiffersFromLimit]) := by
  have enabled : untidy.poolEnabled = true := rfl
  have pooled : tidied.poolEnabled = true := rfl
  have manual : tidied.autoPool = false := rfl
  have servers : (resolve untidy).1 =
      [⟨"office", 2003, .remote, .https⟩, plain "10.0.0.2" 2009] := by decide
  obtain ⟨-, -, same⟩ := resolve_written enabled pooled manual rfl
  refine ⟨enabled, pooled, manual, rfl, ?_⟩
  rw [same, servers]
  rfl

end Endpoint

end Turnstile
