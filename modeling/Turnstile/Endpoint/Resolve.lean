import Turnstile.Settings.Basic

/-!
# Resolving the servers of a pool

The endpoints that a pool leases: none when pooling is off, one local server per
office session in automatic mode, otherwise the configured entries that name a
server.
-/

namespace Turnstile.Endpoint

/-- The distance between the ports of neighbouring automatic servers. -/
def portStride : Nat := 2

/-- The port one stride above, if 16 bits are enough for it. -/
def nextPort? (port : UInt16) : Option UInt16 :=
  if port.toNat + portStride < UInt16.size then some (port + .ofNat portStride) else none

theorem toNat_of_nextPort? {port next : UInt16} (found : nextPort? port = some next) :
    next.toNat = port.toNat + portStride := by
  rw [nextPort?] at found
  split at found
  · rename_i fits
    cases found
    rw [UInt16.toNat_add]
    exact Nat.mod_eq_of_lt fits
  · cases found

/-- A port with all that come after it. -/
def portsFrom (port : UInt16) : List UInt16 :=
  match _found : nextPort? port with
  | some next => port :: portsFrom next
  | none => [port]
termination_by UInt16.size - port.toNat
decreasing_by
  have above := toNat_of_nextPort? _found
  have bound := next.toNat_lt
  simp only [portStride, UInt16.size] at *
  omega

/-- One automatic server per session, as far as there are ports. -/
def automaticList (sessions : Nat) : List Endpoint × List Warning :=
  let endpoints := ((portsFrom defaultPort).take sessions).map (plain defaultHost)
  (endpoints, if endpoints.length < sessions then [.outOfPorts] else [])

/-- The usable entries as endpoints, with the warnings given on the way. -/
def configuredList (entries : List RawEndpoint) : List Endpoint × List Warning :=
  let normal := (entries.filter RawEndpoint.isUsable).map RawEndpoint.normalize
  (normal.map Prod.fst, normal.flatMap Prod.snd)

/-- The endpoints to pool under some settings, with the warnings given on the way. -/
def resolve (settings : Settings) : List Endpoint × List Warning :=
  let sessions := (settings.limitsFor .libreOffice).maxConcurrency
  if !settings.poolEnabled then ([], [])
  else if settings.autoPool then automaticList sessions
  else
    let (endpoints, warnings) := configuredList settings.pool.endpoints
    if endpoints.isEmpty then ([fallback], warnings ++ [.noUsableEndpoint])
    else if endpoints.length ≠ sessions then (endpoints, warnings ++ [.countDiffersFromLimit])
    else (endpoints, warnings)

end Turnstile.Endpoint
