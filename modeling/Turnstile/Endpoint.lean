import Turnstile.Text.Blank

/-!
# Server endpoints

Addresses of long-lived conversion servers, with the routing hint and protocol
a client needs to reach them.
-/

namespace Turnstile

/-- Where a client should assume that the server lives. -/
inductive RoutingHint where
  | auto
  | sameMachine
  | remote
  deriving DecidableEq, Repr

namespace RoutingHint

def all : List RoutingHint := [.auto, .sameMachine, .remote]

def name : RoutingHint → String
  | .auto => "auto"
  | .sameMachine => "local"
  | .remote => "remote"

/-- The hint with exactly this name. -/
def ofName? (text : String) : Option RoutingHint :=
  all.find? (fun hint => hint.name == text)

/-- Reads a configured hint in any letter case, with blanks around it. -/
def read? (text : String) : Option RoutingHint :=
  ofName? (Text.lower (Text.trim text))

end RoutingHint

/-- The transport between client and server. -/
inductive Protocol where
  | http
  | https
  deriving DecidableEq, Repr

namespace Protocol

def all : List Protocol := [.http, .https]

def name : Protocol → String
  | .http => "http"
  | .https => "https"

/-- The protocol with exactly this name. -/
def ofName? (text : String) : Option Protocol :=
  all.find? (fun protocol => protocol.name == text)

/-- Reads a configured protocol in any letter case, with blanks around it. -/
def read? (text : String) : Option Protocol :=
  ofName? (Text.lower (Text.trim text))

end Protocol

/-- The address of one server. -/
structure Endpoint where
  host : String
  port : UInt16
  hint : RoutingHint
  protocol : Protocol
  deriving DecidableEq, Repr

namespace Endpoint

def defaultHost : String := "127.0.0.1"

def defaultPort : UInt16 := 2003

/-- A server reached over plain http with no hint about its place. -/
def plain (host : String) (port : UInt16) : Endpoint :=
  ⟨host, port, .auto, .http⟩

/-- The server assumed when none is configured. -/
def fallback : Endpoint :=
  plain defaultHost defaultPort

/-- The endpoint as shown in listings. -/
def display (endpoint : Endpoint) : String :=
  endpoint.protocol.name ++ "://" ++ endpoint.host ++ ":" ++ toString endpoint.port ++
    " (" ++ endpoint.hint.name ++ ")"

/-- Two endpoints name one server when host and port agree. -/
def SameAddress (first second : Endpoint) : Prop :=
  first.host = second.host ∧ first.port = second.port

end Endpoint

end Turnstile
