import Turnstile.Executor

/-!
# Listings

The limits in force and the pooled servers, as tables and as JSON.
-/

namespace Turnstile.CommandLine

/-- A text with blanks after it, up to a width. -/
def padRight (width : Nat) (text : String) : String :=
  text ++ String.ofList (List.replicate (width - text.length) ' ')

/-- A text with blanks before it, up to a width. -/
def padLeft (width : Nat) (text : String) : String :=
  String.ofList (List.replicate (width - text.length) ' ') ++ text

/-- A value spread over lines, with a line feed after the last. -/
def document (value : Json.Value) : String :=
  String.ofList (Json.pretty 0 value) ++ "\n"

/-! ## Limits -/

/-- Whole minutes of a gate's time limit. -/
def minutesOf (gate : Gate Ticket) : Nat :=
  Time.toSeconds gate.limits.timeout / 60

/-- The line of a gate in the table of limits; fixed limits are marked. -/
def limitsRow (gate : Gate Ticket) : String :=
  padRight 16 gate.category.name ++ " " ++ padLeft 11 (toString gate.capacity) ++ " " ++
    padLeft 8 (toString (minutesOf gate)) ++ "m" ++
    (if gate.category.isConfigurable then "" else " (fixed)") ++ "\n"

def limitsHeader : String :=
  padRight 16 "CATEGORY" ++ " " ++ padLeft 11 "CONCURRENCY" ++ " " ++ padLeft 9 "TIMEOUT" ++ "\n"

def limitsTable (executor : Executor) : String :=
  limitsHeader ++ String.join (Category.all.map fun category => limitsRow (executor.gates category))

/-- A gate in the JSON listing of limits. -/
def limitsEntry (gate : Gate Ticket) : Json.Value :=
  .object [("available", .ofNat gate.available),
    ("category", .text gate.category.name),
    ("configurable", .bool gate.category.isConfigurable),
    ("max_concurrency", .ofNat gate.capacity),
    ("timeout_secs", .ofNat (Time.toSeconds gate.limits.timeout))]

def limitsDocument (executor : Executor) : String :=
  document (.list (Category.all.map fun category => limitsEntry (executor.gates category)))

/-! ## Servers -/

/-- Lines of a listing, each with its position before it. -/
def numbered (first : Nat) : List String → List String
  | [] => []
  | line :: rest => (toString first ++ ": " ++ line ++ "\n") :: numbered (first + 1) rest

def disabledNotice : String :=
  "Server pool disabled; office conversions use the libre-office admission gate.\n"

def endpointsTable (endpoints : List Endpoint) : String :=
  if endpoints.isEmpty then disabledNotice
  else String.join (numbered 0 (endpoints.map Endpoint.display))

/-- A server in the JSON listing. -/
def endpointsEntry (endpoint : Endpoint) : Json.Value :=
  .object [("host", .text endpoint.host),
    ("port", .ofNat endpoint.port.toNat),
    ("routing_hint", .text endpoint.hint.name),
    ("protocol", .text endpoint.protocol.name)]

def endpointsDocument (endpoints : List Endpoint) : String :=
  document (.list (endpoints.map endpointsEntry))

end Turnstile.CommandLine
