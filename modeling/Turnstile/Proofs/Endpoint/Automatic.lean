import Turnstile.Proofs.Endpoint.Resolve
import Turnstile.Proofs.Settings.Limits

/-!
# The ports of automatic servers

Every automatic server listens one stride above the one before.  The ports come to an end
of themselves, and a pool takes as many of them as there are sessions, or all that there are.
-/

namespace Turnstile.Endpoint

theorem length_portsFrom_defaultPort : (portsFrom defaultPort).length = portCount := by
  rw [portsFrom_defaultPort, List.length_map, List.length_range]

/-- A pool has the ports that come first, as many as there are sessions or all that there are. -/
theorem map_port_automaticList (sessions : Nat) :
    (automaticList sessions).1.map Endpoint.port = (portsFrom defaultPort).take sessions := by
  rw [automaticList, List.map_map]
  exact List.map_id _

/-- What an automatic pool for so many sessions holds, and what is warned about. -/
structure Automatic (sessions : Nat) (servers : List Endpoint) (warnings : List Warning) :
    Prop where
  servers_eq : servers = (List.range (min sessions 31767)).map fun index =>
    { host := "127.0.0.1", port := .ofNat (2003 + 2 * index), hint := .auto, protocol := .http }
  /-- No port is too large for 16 bits. -/
  ports_eq : servers.map (fun server => server.port.toNat) =
    (List.range (min sessions 31767)).map fun index => 2003 + 2 * index
  increasing : (servers.map Endpoint.port).Pairwise (· < ·)
  distinct : servers.Nodup
  /-- Counting on from the first port comes to an end, however many sessions there are. -/
  counted : servers.map Endpoint.port = (portsFrom 2003).take sessions ∧
    (portsFrom 2003).length = 31767
  warnings_eq : warnings = if 31767 < sessions then [.outOfPorts] else []
  short : .outOfPorts ∈ warnings ↔ servers.length < sessions

/-- Ports have run out exactly if some session is left without a server. -/
theorem outOfPorts_mem_automaticList {sessions : Nat} :
    .outOfPorts ∈ (automaticList sessions).2 ↔ (automaticList sessions).1.length < sessions := by
  simp only [automaticList]
  split
  · rename_i short
    simp only [List.mem_singleton, short]
  · rename_i enough
    simp only [List.not_mem_nil, enough]

theorem automatic_automaticList (sessions : Nat) :
    Automatic sessions (automaticList sessions).1 (automaticList sessions).2 where
  servers_eq := congrArg Prod.fst (automaticList_eq sessions)
  ports_eq := map_toNat_port_automaticList sessions
  increasing := pairwise_port_automaticList sessions
  distinct :=
    List.Nodup.of_map Endpoint.port ((pairwise_port_automaticList sessions).imp UInt16.ne_of_lt)
  counted := ⟨map_port_automaticList sessions, length_portsFrom_defaultPort⟩
  warnings_eq := congrArg Prod.snd (automaticList_eq sessions)
  short := outOfPorts_mem_automaticList

/--
An automatic pool has a server for each session that the settings grant, a stride apart from
the first port on, unless the ports run out before, and this alone is warned about.
-/
theorem automatic_resolve {settings : Settings} (enabled : settings.poolEnabled = true)
    (auto : settings.autoPool = true) :
    Automatic (settings.limitsFor .libreOffice).maxConcurrency
        (resolve settings).1 (resolve settings).2 ∧
      0 < (settings.limitsFor .libreOffice).maxConcurrency ∧
        (settings.limitsFor .libreOffice).maxConcurrency ≤ 9223372036854775807 := by
  refine ⟨?_, (settings.limitsFor .libreOffice).positive,
    settings.maxConcurrency_limitsFor_le .libreOffice⟩
  have resolved : resolve settings =
      automaticList (settings.limitsFor .libreOffice).maxConcurrency := by
    simp [resolve, enabled, auto]
  rw [resolved]
  exact automatic_automaticList _

/-- Settings that grant as many sessions as a signed word can count. -/
def endlessSessions : Settings where
  sessionLimits := CategoryTable.empty.insert .libreOffice 9223372036854775807

/-- The ports run out long before the sessions do, and the last of them is the largest. -/
theorem automatic_resolve_endless :
    endlessSessions.poolEnabled = true ∧ endlessSessions.autoPool = true ∧
      (endlessSessions.limitsFor .libreOffice).maxConcurrency = 9223372036854775807 ∧
        (resolve endlessSessions).1.length = 31767 ∧
          (resolve endlessSessions).1[31766]? = some (plain "127.0.0.1" 65535) ∧
            (resolve endlessSessions).2 = [.outOfPorts] := by
  have enabled : endlessSessions.poolEnabled = true := rfl
  have auto : endlessSessions.autoPool = true := rfl
  have granted : (endlessSessions.limitsFor .libreOffice).maxConcurrency =
      9223372036854775807 := by decide
  obtain ⟨pool, -⟩ := automatic_resolve enabled auto
  rw [granted] at pool
  refine ⟨enabled, auto, granted, ?_, ?_, pool.warnings_eq⟩
  · rw [pool.servers_eq, List.length_map, List.length_range]
    rfl
  · rw [pool.servers_eq, List.getElem?_map, List.getElem?_range (by decide)]
    rfl

end Turnstile.Endpoint
