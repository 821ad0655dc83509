import Turnstile.Endpoint

/-!
# Configured endpoints

Endpoints as written in settings, and their reading as usable addresses.  What
cannot be used is replaced by a default, and replacements are warned about.
-/

namespace Turnstile

/-- What is worth a warning while endpoints are resolved. -/
inductive Warning where
  | portOutOfRange
  | unknownHint (written host : String) (port : UInt16)
  | unknownProtocol (written host : String) (port : UInt16)
  | noUsableEndpoint
  | countDiffersFromLimit
  | outOfPorts
  deriving DecidableEq, Repr

namespace Warning

def message : Warning → String
  | .portOutOfRange => "Endpoint port out of range, using default"
  | .unknownHint written host port =>
    "Invalid host location '" ++ written ++ "' for endpoint " ++ host ++ ":" ++ toString port ++
      ", defaulting to 'auto'"
  | .unknownProtocol written host port =>
    "Invalid protocol '" ++ written ++ "' for endpoint " ++ host ++ ":" ++ toString port ++
      ", defaulting to 'http'"
  | .noUsableEndpoint =>
    "Auto server pool disabled but no usable endpoints configured; defaulting to " ++
      Endpoint.defaultHost ++ ":" ++ toString Endpoint.defaultPort
  | .countDiffersFromLimit =>
    "Manual endpoint count differs from the libre-office session limit; " ++
      "concurrency will be limited by endpoint count"
  | .outOfPorts => "Ran out of ports for auto server endpoints"

end Warning

/-- An endpoint as configured: every part may be missing or unusable. -/
structure RawEndpoint where
  host : Option String := none
  port : Option Int64 := none
  hint : Option String := none
  protocol : Option String := none
  deriving DecidableEq, Repr

namespace RawEndpoint

/-- A configured host without the blanks around it, unless nothing is left. -/
def usableHost? (host : Option String) : Option String :=
  (host.map Text.trim).filter (fun text => text ≠ "")

/-- The host to use; a missing or blank one is the local machine. -/
def normalHost (host : Option String) : String :=
  (usableHost? host).getD Endpoint.defaultHost

/-- The port to use; one above the 16-bit range is warned about, one below it is not. -/
def normalPort : Option Int64 → UInt16 × List Warning
  | none => (Endpoint.defaultPort, [])
  | some port =>
    if port.toInt ≤ 0 then (Endpoint.defaultPort, [])
    else if port.toInt < 65536 then (UInt16.ofNat port.toInt.toNat, [])
    else (Endpoint.defaultPort, [.portOutOfRange])

/-- The hint to use for an endpoint at `host` and `port`. -/
def normalHint (host : String) (port : UInt16) : Option String → RoutingHint × List Warning
  | none => (.auto, [])
  | some written =>
    match RoutingHint.read? written with
    | some hint => (hint, [])
    | none => (.auto, [.unknownHint written host port])

/-- The protocol to use for an endpoint at `host` and `port`. -/
def normalProtocol (host : String) (port : UInt16) : Option String → Protocol × List Warning
  | none => (.http, [])
  | some written =>
    match Protocol.read? written with
    | some protocol => (protocol, [])
    | none => (.http, [.unknownProtocol written host port])

/-- The usable endpoint for configured values, with the warnings given on the way. -/
def normalize (raw : RawEndpoint) : Endpoint × List Warning :=
  let host := normalHost raw.host
  let (port, portWarnings) := normalPort raw.port
  let (hint, hintWarnings) := normalHint host port raw.hint
  let (protocol, protocolWarnings) := normalProtocol host port raw.protocol
  (⟨host, port, hint, protocol⟩, portWarnings ++ hintWarnings ++ protocolWarnings)

/-- An entry names a server when it has a host that is not blank and a positive port. -/
def isUsable (raw : RawEndpoint) : Bool :=
  (usableHost? raw.host).isSome && raw.port.any (fun port => 0 < port.toInt)

/-- The configured form of a resolved endpoint. -/
def ofEndpoint (endpoint : Endpoint) : RawEndpoint where
  host := some endpoint.host
  port := some (.ofNat endpoint.port.toNat)
  hint := some endpoint.hint.name
  protocol := some endpoint.protocol.name

end RawEndpoint

end Turnstile
