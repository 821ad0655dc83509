import Turnstile.Proofs.Endpoint.Usability

/-!
# What is warned about when an endpoint is read

A part of a configured endpoint that cannot be used gives way to a default.  There is one
warning for a port that is too large and for each unknown name, and none for a host that is
blank or a port that is not positive.
-/

namespace Turnstile

theorem RoutingHint.name_of_read? {text : String} {hint : RoutingHint}
    (found : read? text = some hint) : hint.name = Text.lower (Text.trim text) := by
  rw [read?, ofName?] at found
  have named := List.find?_some found
  rwa [beq_iff_eq] at named

theorem RoutingHint.read?_eq_none_iff {text : String} :
    read? text = none ↔ Text.lower (Text.trim text) ∉ all.map name := by
  simp [read?, ofName?]

theorem Protocol.name_of_read? {text : String} {protocol : Protocol}
    (found : read? text = some protocol) : protocol.name = Text.lower (Text.trim text) := by
  rw [read?, ofName?] at found
  have named := List.find?_some found
  rwa [beq_iff_eq] at named

theorem Protocol.read?_eq_none_iff {text : String} :
    read? text = none ↔ Text.lower (Text.trim text) ∉ all.map name := by
  simp [read?, ofName?]

/-- A part of a configured endpoint. -/
inductive EndpointPart where
  | host
  | port
  | hint
  | protocol
  deriving DecidableEq, Repr

/-- The part of one endpoint that a warning is about, unless it is about a list of them. -/
def Warning.part? : Warning → Option EndpointPart
  | .portOutOfRange => some .port
  | .unknownHint .. => some .hint
  | .unknownProtocol .. => some .protocol
  | .noUsableEndpoint => none
  | .countDiffersFromLimit => none
  | .outOfPorts => none

/-- The endpoint has what stands in for the part when it is left out. -/
def Endpoint.HasDefault (endpoint : Endpoint) : EndpointPart → Prop
  | .host => endpoint.host = defaultHost
  | .port => endpoint.port = defaultPort
  | .hint => endpoint.hint = .auto
  | .protocol => endpoint.protocol = .http

namespace RawEndpoint

/-! ## Parts that are written -/

def isAbsent (raw : RawEndpoint) : EndpointPart → Bool
  | .host => raw.host.isNone
  | .port => raw.port.isNone
  | .hint => raw.hint.isNone
  | .protocol => raw.protocol.isNone

/-- The part is written, but as nothing that can be used. -/
def isUnusable (raw : RawEndpoint) : EndpointPart → Bool
  | .host => raw.host.any Text.isBlankText
  | .port => raw.port.any fun word => word.toInt < 1 || 65535 < word.toInt
  | .hint => raw.hint.any fun text =>
    Text.lower (Text.trim text) ∉ RoutingHint.all.map RoutingHint.name
  | .protocol => raw.protocol.any fun text =>
    Text.lower (Text.trim text) ∉ Protocol.all.map Protocol.name

/-- The endpoint has the part as it is written, without blanks and in small letters for a name. -/
def Keeps (raw : RawEndpoint) (endpoint : Endpoint) : EndpointPart → Prop
  | .host => raw.host.map Text.trim = some endpoint.host
  | .port => raw.port.map Int64.toInt = some (endpoint.port.toNat : Int)
  | .hint => (raw.hint.map fun text => Text.lower (Text.trim text)) = some endpoint.hint.name
  | .protocol =>
    (raw.protocol.map fun text => Text.lower (Text.trim text)) = some endpoint.protocol.name

/-- The part is unusable, and nothing is said about it. -/
def isOverlooked (raw : RawEndpoint) : EndpointPart → Bool
  | .host => raw.host.any Text.isBlankText
  | .port => raw.port.any fun word => word.toInt < 1
  | .hint => false
  | .protocol => false

/-- The warnings about a part that are given when the endpoint is read. -/
def warningsAbout (raw : RawEndpoint) (part : EndpointPart) : List Warning :=
  raw.normalize.2.filter fun warning => warning.part? = some part

section Parts

variable {raw : RawEndpoint} {part : EndpointPart}

theorem isUnusable_of_isAbsent (unset : raw.isAbsent part = true) :
    raw.isUnusable part = false := by
  cases part with
  | host | port | hint | protocol =>
      simp only [isAbsent, Option.isNone_iff_eq_none] at unset
      simp [isUnusable, unset]

theorem isUnusable_of_isOverlooked (silent : raw.isOverlooked part = true) :
    raw.isUnusable part = true := by
  cases part with
  | host => exact silent
  | port =>
      obtain ⟨word, written, low⟩ := (Option.any_eq_true ..).mp silent
      simp [isUnusable, written, of_decide_eq_true low]
  | hint | protocol => cases silent

end Parts

/-! ## Reading one part -/

theorem normalHost_of_blank {text : String} (blank : Text.isBlankText text = true) :
    normalHost (some text) = Endpoint.defaultHost := by
  rw [normalHost_some, if_pos (Text.trim_eq_empty_iff.mpr blank)]

theorem normalHost_of_not_blank {text : String} (named : Text.isBlankText text = false) :
    normalHost (some text) = Text.trim text := by
  rw [normalHost_some, if_neg (by rw [Text.trim_eq_empty_iff, named]; decide)]

theorem normalPort_of_lt {word : Int64} (low : word.toInt < 1) :
    normalPort (some word) = (Endpoint.defaultPort, []) := by
  rw [normalPort, if_pos (by omega)]

theorem normalPort_of_gt {word : Int64} (high : 65535 < word.toInt) :
    normalPort (some word) = (Endpoint.defaultPort, [.portOutOfRange]) := by
  rw [normalPort, if_neg (by omega), if_neg (by omega)]

theorem normalPort_of_fits {word : Int64} (positive : 1 ≤ word.toInt) (fits : word.toInt ≤ 65535) :
    ∃ port : UInt16, (port.toNat : Int) = word.toInt ∧ normalPort (some word) = (port, []) := by
  refine ⟨.ofNat word.toInt.toNat, ?_, ?_⟩
  · rw [UInt16.toNat_ofNat_of_lt' (by simp only [UInt16.size]; omega)]
    omega
  · rw [normalPort, if_neg (by omega), if_pos (by omega)]

section Names

variable {host text : String} {port : UInt16}

theorem normalHint_of_known {hint : RoutingHint} (read : RoutingHint.read? text = some hint) :
    normalHint host port (some text) = (hint, []) := by
  rw [normalHint, read]

theorem normalHint_of_unknown (read : RoutingHint.read? text = none) :
    normalHint host port (some text) = (.auto, [.unknownHint text host port]) := by
  rw [normalHint, read]

theorem normalProtocol_of_known {protocol : Protocol}
    (read : Protocol.read? text = some protocol) :
    normalProtocol host port (some text) = (protocol, []) := by
  rw [normalProtocol, read]

theorem normalProtocol_of_unknown (read : Protocol.read? text = none) :
    normalProtocol host port (some text) = (.http, [.unknownProtocol text host port]) := by
  rw [normalProtocol, read]

end Names

/-- What becomes of a part when the endpoint is read, with the warnings about it. -/
inductive Fate (raw : RawEndpoint) (part : EndpointPart) : List Warning → Prop where
  | absent (unset : raw.isAbsent part = true) (default : raw.normalize.1.HasDefault part) :
      Fate raw part []
  | kept (written : raw.isAbsent part = false) (usable : raw.isUnusable part = false)
      (keeps : raw.Keeps raw.normalize.1 part) : Fate raw part []
  | overlooked (silent : raw.isOverlooked part = true)
      (default : raw.normalize.1.HasDefault part) : Fate raw part []
  | replaced (spoilt : raw.isUnusable part = true) (heard : raw.isOverlooked part = false)
      (default : raw.normalize.1.HasDefault part) (warning : Warning)
      (about : warning.part? = some part) : Fate raw part [warning]

section Fate

variable (raw : RawEndpoint)

theorem fate_host : Fate raw .host [] := by
  have same : raw.normalize.1.host = normalHost raw.host := by simp only [normalize]
  cases written : raw.host with
  | none =>
      rw [written] at same
      exact .absent (by simp [isAbsent, written]) same
  | some text =>
      rw [written] at same
      cases blank : Text.isBlankText text with
      | true =>
          rw [normalHost_of_blank blank] at same
          exact .overlooked (by simp [isOverlooked, written, blank]) same
      | false =>
          rw [normalHost_of_not_blank blank] at same
          exact .kept (by simp [isAbsent, written]) (by simp [isUnusable, written, blank])
            (by simp [Keeps, written, same])

theorem fate_port : Fate raw .port (normalPort raw.port).2 := by
  have same : raw.normalize.1.port = (normalPort raw.port).1 := by simp only [normalize]
  cases written : raw.port with
  | none =>
      rw [written] at same
      exact .absent (by simp [isAbsent, written]) same
  | some word =>
      rw [written] at same
      by_cases low : word.toInt < 1
      · rw [normalPort_of_lt low] at same ⊢
        exact .overlooked (by simp [isOverlooked, written, low]) same
      · by_cases high : 65535 < word.toInt
        · rw [normalPort_of_gt high] at same ⊢
          have default : raw.normalize.1.HasDefault .port := same
          exact .replaced (by simp [isUnusable, written, high])
            (by simpa [isOverlooked, written] using low) default .portOutOfRange rfl
        · obtain ⟨port, value, read⟩ :=
            normalPort_of_fits (Int.not_lt.mp low) (Int.not_lt.mp high)
          rw [read] at same ⊢
          exact .kept (by simp [isAbsent, written])
            (by simpa [isUnusable, written] using ⟨Int.not_lt.mp low, Int.not_lt.mp high⟩)
            (by simp [Keeps, written, same, value])

theorem fate_hint :
    Fate raw .hint (normalHint (normalHost raw.host) (normalPort raw.port).1 raw.hint).2 := by
  have same : raw.normalize.1.hint =
      (normalHint (normalHost raw.host) (normalPort raw.port).1 raw.hint).1 := by
    simp only [normalize]
  cases written : raw.hint with
  | none =>
      rw [written] at same
      exact .absent (by simp [isAbsent, written]) same
  | some text =>
      rw [written] at same
      have spoilt : raw.isUnusable .hint = decide (RoutingHint.read? text = none) := by
        simp only [isUnusable, written, Option.any_some, RoutingHint.read?_eq_none_iff]
      cases read : RoutingHint.read? text with
      | none =>
          rw [normalHint_of_unknown read] at same ⊢
          have default : raw.normalize.1.HasDefault .hint := same
          exact .replaced (by simp [spoilt, read]) rfl default (.unknownHint ..) rfl
      | some hint =>
          rw [normalHint_of_known read] at same ⊢
          exact .kept (by simp [isAbsent, written]) (by simp [spoilt, read])
            (by simp [Keeps, written, same, RoutingHint.name_of_read? read])

theorem fate_protocol :
    Fate raw .protocol
      (normalProtocol (normalHost raw.host) (normalPort raw.port).1 raw.protocol).2 := by
  have same : raw.normalize.1.protocol =
      (normalProtocol (normalHost raw.host) (normalPort raw.port).1 raw.protocol).1 := by
    simp only [normalize]
  cases written : raw.protocol with
  | none =>
      rw [written] at same
      exact .absent (by simp [isAbsent, written]) same
  | some text =>
      rw [written] at same
      have spoilt : raw.isUnusable .protocol = decide (Protocol.read? text = none) := by
        simp only [isUnusable, written, Option.any_some, Protocol.read?_eq_none_iff]
      cases read : Protocol.read? text with
      | none =>
          rw [normalProtocol_of_unknown read] at same ⊢
          have default : raw.normalize.1.HasDefault .protocol := same
          exact .replaced (by simp [spoilt, read]) rfl default (.unknownProtocol ..) rfl
      | some protocol =>
          rw [normalProtocol_of_known read] at same ⊢
          exact .kept (by simp [isAbsent, written]) (by simp [spoilt, read])
            (by simp [Keeps, written, same, Protocol.name_of_read? read])

end Fate

namespace Fate

variable {raw : RawEndpoint} {part : EndpointPart} {warnings : List Warning}

theorem part?_of_mem (fate : Fate raw part warnings) {warning : Warning}
    (member : warning ∈ warnings) : warning.part? = some part := by
  cases fate with
  | absent | kept | overlooked => cases member
  | replaced _ _ _ warning about => rwa [List.mem_singleton.mp member]

/-- All of the warnings are about the part, and none is about another. -/
theorem filter_eq (fate : Fate raw part warnings) (other : EndpointPart) :
    (warnings.filter fun warning => warning.part? = some other) =
      if part = other then warnings else [] := by
  split
  · rename_i same
    subst same
    exact List.filter_eq_self.mpr fun warning member => decide_eq_true (fate.part?_of_mem member)
  · rename_i different
    refine List.filter_eq_nil_iff.mpr fun warning member => ?_
    simpa [fate.part?_of_mem member] using different

theorem length_eq (fate : Fate raw part warnings) :
    warnings.length = if raw.isUnusable part && !raw.isOverlooked part then 1 else 0 := by
  cases fate with
  | absent unset => simp [isUnusable_of_isAbsent unset]
  | kept _ usable => simp [usable]
  | overlooked silent => simp [silent]
  | replaced spoilt heard => simp [spoilt, heard]

theorem hasDefault (fate : Fate raw part warnings)
    (missing : raw.isAbsent part = true ∨ raw.isUnusable part = true) :
    raw.normalize.1.HasDefault part := by
  cases fate with
  | absent _ default | overlooked _ default | replaced _ _ default => exact default
  | kept written usable => simp [written, usable] at missing

theorem keeps_of_usable (fate : Fate raw part warnings) (written : raw.isAbsent part = false)
    (usable : raw.isUnusable part = false) : raw.Keeps raw.normalize.1 part := by
  cases fate with
  | absent unset => simp [unset] at written
  | kept _ _ keeps => exact keeps
  | overlooked silent => simp [isUnusable_of_isOverlooked silent] at usable
  | replaced spoilt => simp [spoilt] at usable

end Fate

/-! ## Reading an endpoint -/

section Whole

variable (raw : RawEndpoint)

/-- The warnings of an endpoint are those of its parts, one part after the other. -/
theorem warnings_normalize :
    raw.normalize.2 = (normalPort raw.port).2 ++
      (normalHint (normalHost raw.host) (normalPort raw.port).1 raw.hint).2 ++
        (normalProtocol (normalHost raw.host) (normalPort raw.port).1 raw.protocol).2 := by
  simp only [normalize]

theorem fate (part : EndpointPart) : Fate raw part (raw.warningsAbout part) := by
  rw [warningsAbout, warnings_normalize, List.filter_append, List.filter_append,
    raw.fate_port.filter_eq, raw.fate_hint.filter_eq, raw.fate_protocol.filter_eq]
  cases part with
  | host => exact raw.fate_host
  | port => simpa using raw.fate_port
  | hint => simpa using raw.fate_hint
  | protocol => simpa using raw.fate_protocol

theorem isSome_part?_of_mem {warning : Warning} (member : warning ∈ raw.normalize.2) :
    warning.part?.isSome = true := by
  rw [warnings_normalize, List.mem_append, List.mem_append] at member
  rcases member with (port | hint) | protocol
  · rw [raw.fate_port.part?_of_mem port, Option.isSome_some]
  · rw [raw.fate_hint.part?_of_mem hint, Option.isSome_some]
  · rw [raw.fate_protocol.part?_of_mem protocol, Option.isSome_some]

/-- There is a warning for every unusable part except one that is overlooked. -/
theorem length_warningsAbout_iff (part : EndpointPart) :
    ((raw.warningsAbout part).length = if raw.isUnusable part then 1 else 0) ↔
      raw.isOverlooked part = false := by
  rw [(raw.fate part).length_eq]
  cases silent : raw.isOverlooked part with
  | false => simp
  | true => simp [isUnusable_of_isOverlooked silent]

theorem forall_isOverlooked_eq_false_iff :
    (∀ part, raw.isOverlooked part = false) ↔
      (∀ text, raw.host = some text → Text.isBlankText text = false) ∧
        ∀ word, raw.port = some word → 1 ≤ word.toInt := by
  constructor
  · intro heard
    constructor
    · intro text written
      simpa [isOverlooked, written] using heard .host
    · intro word written
      simpa [isOverlooked, written] using heard .port
  · rintro ⟨named, positive⟩ part
    cases part with
    | host => cases written : raw.host <;> simp [isOverlooked, written, named]
    | port =>
        cases written : raw.port with
        | none => simp [isOverlooked, written]
        | some word => simpa [isOverlooked, written] using positive word written
    | hint => rfl
    | protocol => rfl

/--
A part that is absent or unusable has its default, and any other is kept.  For each unusable
part there is one warning and for any other none, exactly if the host is not blank and the
port is positive where they are written; for a blank host or such a port there is none.
-/
theorem warned_unless_overlooked :
    (∀ part,
      (raw.isAbsent part = true ∨ raw.isUnusable part = true →
        raw.normalize.1.HasDefault part) ∧
      (raw.isAbsent part = false → raw.isUnusable part = false →
        raw.Keeps raw.normalize.1 part) ∧
      (raw.warningsAbout part).length =
        if raw.isUnusable part && !raw.isOverlooked part then 1 else 0) ∧
    (∀ warning ∈ raw.normalize.2, warning.part?.isSome = true) ∧
    ((∀ part, (raw.warningsAbout part).length = if raw.isUnusable part then 1 else 0) ↔
      (∀ text, raw.host = some text → Text.isBlankText text = false) ∧
        ∀ word, raw.port = some word → 1 ≤ word.toInt) := by
  refine ⟨fun part => ?_, fun warning => raw.isSome_part?_of_mem, ?_⟩
  · have fate := raw.fate part
    exact ⟨fate.hasDefault, fate.keeps_of_usable, fate.length_eq⟩
  · simp only [length_warningsAbout_iff, forall_isOverlooked_eq_false_iff]

end Whole

/-- A configured server without a port that could be meant. -/
def portless : RawEndpoint where
  host := some "office"
  port := some 0

/-- A configured server without a name. -/
def nameless : RawEndpoint where
  host := some "  "
  port := some 2003

/-- A port that is not positive and a blank host give way to defaults without a warning. -/
theorem replaced_silently :
    portless.isUnusable .port = true ∧
      portless.normalize = (Endpoint.plain "office" 2003, []) ∧
        portless.warningsAbout .port = [] ∧
    nameless.isUnusable .host = true ∧
      nameless.normalize = (Endpoint.plain "127.0.0.1" 2003, []) ∧
        nameless.warningsAbout .host = [] := by
  decide

end RawEndpoint

end Turnstile
