import Turnstile.Json.Read
import Turnstile.Json.Value
import Turnstile.Settings.Basic

/-!
# Settings as JSON

The record formats of settings, configured endpoints and resolved endpoints:
how they are read from JSON text and how they are written.
-/

namespace Turnstile

open Json

/-! ## Reading -/

namespace CategoryTable

/-- Reads the value of the category that a member is named for. -/
def readMember (name : String) (table : CategoryTable Int64) : Reader (CategoryTable Int64) :=
  fun cs =>
    match Category.ofName? name with
    | none => .error .mistyped
    | some category =>
      match readColon cs with
      | .error fault => .error fault
      | .ok rest => mapRead (table.insert category) (readInt64 rest)

/-- Reads an object from category names to integers; of two equal names the last counts. -/
def read : Reader (CategoryTable Int64) := fun cs =>
  match skipSpace cs with
  | '{' :: rest => readObject readMember .empty rest
  | other => .error (wrongType other)

end CategoryTable

namespace RawEndpoint

def fields : List (RecordField RawEndpoint) :=
  [⟨"host", fun raw cs => mapRead (fun value => { raw with host := value })
      (readOptional readText cs)⟩,
    ⟨"port", fun raw cs => mapRead (fun value => { raw with port := value })
      (readOptional readInt64 cs)⟩,
    ⟨"host_location", fun raw cs => mapRead (fun value => { raw with hint := value })
      (readOptional readText cs)⟩,
    ⟨"protocol", fun raw cs => mapRead (fun value => { raw with protocol := value })
      (readOptional readText cs)⟩]

def read : Reader RawEndpoint :=
  readRecord fields [] {}

end RawEndpoint

namespace PoolSettings

def fields : List (RecordField PoolSettings) :=
  [⟨"enabled", fun pool cs => mapRead (fun value => { pool with enabled := value })
      (readOptional readBool cs)⟩,
    ⟨"auto", fun pool cs => mapRead (fun value => { pool with auto := value })
      (readOptional readBool cs)⟩,
    ⟨"endpoints", fun pool cs => mapRead (fun value => { pool with endpoints := value })
      (readList RawEndpoint.read cs)⟩]

def read : Reader PoolSettings :=
  readRecord fields [] {}

end PoolSettings

namespace Settings

def fields : List (RecordField Settings) :=
  [⟨"session_limits", fun settings cs =>
      mapRead (fun value => { settings with sessionLimits := value }) (CategoryTable.read cs)⟩,
    ⟨"timeout_minutes", fun settings cs =>
      mapRead (fun value => { settings with timeoutMinutes := value }) (CategoryTable.read cs)⟩,
    ⟨"live_updates", fun settings cs =>
      mapRead (fun value => { settings with liveUpdates := value }) (readOptional readBool cs)⟩,
    ⟨"kill_grace_secs", fun settings cs =>
      mapRead (fun value => { settings with killGraceSecs := value }) (readOptional readUInt64 cs)⟩,
    ⟨"server_pool", fun settings cs =>
      mapRead (fun value => { settings with pool := value }) (PoolSettings.read cs)⟩]

def read : Reader Settings :=
  readRecord fields [] {}

/-- The settings that a text describes. -/
def parse (text : String) : Except Fault Settings :=
  readWhole read text.toList

end Settings

namespace Endpoint

def fields : List (RecordField Endpoint) :=
  [⟨"host", fun endpoint cs => mapRead (fun value => { endpoint with host := value })
      (readText cs)⟩,
    ⟨"port", fun endpoint cs => mapRead (fun value => { endpoint with port := value })
      (readUInt16 cs)⟩,
    ⟨"routing_hint", fun endpoint cs => mapRead (fun value => { endpoint with hint := value })
      (readName RoutingHint.ofName? cs)⟩,
    ⟨"protocol", fun endpoint cs => mapRead (fun value => { endpoint with protocol := value })
      (readName Protocol.ofName? cs)⟩]

/-- Reads an endpoint; none of its fields may be missing. -/
def read : Reader Endpoint :=
  readRecord fields ["host", "port", "routing_hint", "protocol"] .fallback

/-- The endpoint that a text describes. -/
def parse (text : String) : Except Fault Endpoint :=
  readWhole read text.toList

end Endpoint

/-! ## Writing -/

/-- A table as an object, in listing order. -/
def CategoryTable.toJson (table : CategoryTable Int64) : Json.Value :=
  .object (Category.all.filterMap fun category =>
    (table category).map fun value => (category.name, Value.ofInt value.toInt))

def RawEndpoint.toJson (raw : RawEndpoint) : Json.Value :=
  .object [("host", .ofOption .text raw.host),
    ("port", .ofOption (fun port => .ofInt port.toInt) raw.port),
    ("host_location", .ofOption .text raw.hint),
    ("protocol", .ofOption .text raw.protocol)]

def PoolSettings.toJson (pool : PoolSettings) : Json.Value :=
  .object [("enabled", .ofOption .bool pool.enabled), ("auto", .ofOption .bool pool.auto),
    ("endpoints", .list (pool.endpoints.map RawEndpoint.toJson))]

def Settings.toJson (settings : Settings) : Json.Value :=
  .object [("session_limits", settings.sessionLimits.toJson),
    ("timeout_minutes", settings.timeoutMinutes.toJson),
    ("live_updates", .ofOption .bool settings.liveUpdates),
    ("kill_grace_secs", .ofOption (fun secs => .ofNat secs.toNat) settings.killGraceSecs),
    ("server_pool", settings.pool.toJson)]

def Endpoint.toJson (endpoint : Endpoint) : Json.Value :=
  .object [("host", .text endpoint.host), ("port", .ofNat endpoint.port.toNat),
    ("routing_hint", .text endpoint.hint.name), ("protocol", .text endpoint.protocol.name)]

end Turnstile
