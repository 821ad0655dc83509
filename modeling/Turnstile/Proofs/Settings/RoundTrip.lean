import Turnstile.Settings.Load
import Turnstile.Proofs.Json.Variants
import Turnstile.Proofs.Text.Utf8

/-!
# Settings are read back

Settings are read back from every text of what is written for them: in any order of the
fields and of the categories of a limit, with fields left out that say nothing, and with
other fields put in, whatever these hold.  What is then refused is a limit for a fixed category, and after
that a grace period that is none or too long.
-/

namespace Turnstile

open Json

/-! ## Tables -/

theorem Category.name_injective {category other : Category} (same : category.name = other.name) :
    category = other := by
  have named := Category.ofName?_name category
  rw [same, Category.ofName?_name] at named
  exact (Option.some.inj named).symm

theorem Category.eq_cffConverter {category : Category}
    (fixed : category.isConfigurable = false) : category = .cffConverter := by
  cases category <;> first | rfl | cases fixed

namespace CategoryTable

/-- The table has a value for a category, and the member gives it. -/
def Entry (table : CategoryTable Int64) (member : String × Value) : Prop :=
  ∃ category value, table category = some value ∧
    member = (category.name, Value.ofInt value.toInt)

theorem mem_toJson {table : CategoryTable Int64} {members : List (String × Value)}
    (written : table.toJson = .object members) (member : String × Value) :
    member ∈ members ↔ table.Entry member := by
  cases written
  simp only [List.mem_filterMap, Option.map_eq_some_iff]
  constructor
  · rintro ⟨category, _, value, has, rfl⟩
    exact ⟨category, value, has, rfl⟩
  · rintro ⟨category, value, has, rfl⟩
    exact ⟨category, category.mem_all, value, has, rfl⟩

theorem takes_entry (category : Category) (value : Int64) (table : CategoryTable Int64) :
    Takes readMember category.name (Value.ofInt value.toInt).tree table
      (table.insert category value) := by
  intro text spelled blanks blanks' rest blank blank' follows
  simp only [readMember, Category.ofName?_name, readColon_append blank,
    reads_int64 value spelled blank' follows, mapRead]

/-- After some entries have been read into `before`, their categories have what `table` says. -/
theorem takesAll_entries {table : CategoryTable Int64} {later : List (String × Tree)}
    (entries : ∀ member ∈ later, ∃ entry, table.Entry entry ∧ (entry.1, entry.2.tree) = member)
    (before : CategoryTable Int64) :
    ∃ after, TakesAll readMember later before after ∧
      ∀ category, after category =
        if category.name ∈ later.map Prod.fst then table category else before category := by
  induction later generalizing before with
  | nil => exact ⟨before, .nil, by simp⟩
  | cons member later ih =>
      obtain ⟨_, ⟨category, value, has, rfl⟩, rfl⟩ := entries member List.mem_cons_self
      obtain ⟨after, takes, reached⟩ :=
        ih (fun member found => entries member (List.mem_cons_of_mem _ found))
          (before.insert category value)
      refine ⟨after, .cons (takes_entry category value before) takes, fun other => ?_⟩
      rw [reached other]
      by_cases same : other = category
      · subst same
        simp [insert, has]
      · have names : other.name ≠ category.name := fun equal => same (Category.name_injective equal)
        simp only [insert, if_neg same, List.map_cons, List.mem_cons, names, false_or]

theorem reads {table : CategoryTable Int64} {later : Tree}
    (variant : Variant .map table.toJson later) : Reads CategoryTable.read later table := by
  generalize written : table.toJson = value at variant
  cases variant with
  | @map members later order =>
      have entries (member : String × Tree) :
          member ∈ later ↔ ∃ entry, table.Entry entry ∧ (entry.1, entry.2.tree) = member := by
        rw [order.mem_iff, treeMembers_eq_map, List.mem_map]
        simp only [mem_toJson written]
      obtain ⟨after, takes, reached⟩ :=
        takesAll_entries (fun member found => (entries member).mp found) .empty
      have whole : after = table := by
        funext category
        rw [reached category]
        split
        · rfl
        · rename_i missing
          cases has : table category with
          | none => rfl
          | some value =>
              have found := (entries _).mpr ⟨_, ⟨category, value, has, rfl⟩, rfl⟩
              exact absurd (List.mem_map_of_mem found) missing
      subst whole
      intro text spelled blanks rest blank _
      have spaced := spelled.skipSpace blank rest
      obtain ⟨inner, rfl, members⟩ := spelled
      rw [CategoryTable.read, spaced]
      exact readObject_append takes members rest

theorem written (table : CategoryTable Int64) : Written .map table.toJson where
  variant := .map (.refl _)
  hasText := by
    refine membersHaveTexts_iff.mpr fun member found => ?_
    obtain ⟨category, value, _, rfl⟩ := (mem_toJson rfl member).mp found
    exact hasText_ofInt value.toInt

theorem eq_empty {table : CategoryTable Int64} (unset : Unset table.toJson) :
    table = .empty := by
  generalize written : table.toJson = value at unset
  funext category
  cases has : table category with
  | none => rfl
  | some value =>
      cases unset with
      | null => cases written
      | list => cases written
      | object each =>
          have found := (mem_toJson written _).mpr ⟨category, value, has, rfl⟩
          cases each _ found

end CategoryTable

/-! ## Records -/

namespace RawEndpoint

def shape : Shape :=
  .record [("host", .leaf), ("port", .leaf), ("host_location", .leaf), ("protocol", .leaf)]

def parts (raw : RawEndpoint) : List Part :=
  [⟨"host", .leaf, .ofOption .text raw.host⟩,
    ⟨"port", .leaf, .ofOption (fun port => .ofInt port.toInt) raw.port⟩,
    ⟨"host_location", .leaf, .ofOption .text raw.hint⟩,
    ⟨"protocol", .leaf, .ofOption .text raw.protocol⟩]

/-- The endpoint with the parts of the given names alone. -/
def partly (raw : RawEndpoint) (seen : List String) : RawEndpoint where
  host := if "host" ∈ seen then raw.host else none
  port := if "port" ∈ seen then raw.port else none
  hint := if "host_location" ∈ seen then raw.hint else none
  protocol := if "protocol" ∈ seen then raw.protocol else none

theorem reflects (raw : RawEndpoint) : Reflects fields raw.parts raw.partly raw where
  distinct := by simp [parts]
  only := by simp [fields, parts]
  known := by
    simp only [parts, List.mem_cons, List.not_mem_nil, or_false, forall_eq_or_imp, forall_eq]
    refine ⟨⟨_, rfl, ?_⟩, ⟨_, rfl, ?_⟩, ⟨_, rfl, ?_⟩, ⟨_, rfl, ?_⟩⟩
    all_goals rintro seen later ⟨⟩
    · exact (reads_optional _ reads_text nofun).map (by simp [partly])
    · exact (reads_optional _ reads_int64 nofun).map (by simp [partly])
    · exact (reads_optional _ reads_text nofun).map (by simp [partly])
    · exact (reads_optional _ reads_text nofun).map (by simp [partly])
  whole := by
    intro seen given
    simp only [parts, List.mem_cons, List.not_mem_nil, or_false, forall_eq_or_imp, forall_eq]
      at given
    obtain ⟨host, port, hint, protocol⟩ := given
    rw [partly, keeps host (Unset.ofOption nofun), keeps port (Unset.ofOption nofun),
      keeps hint (Unset.ofOption nofun), keeps protocol (Unset.ofOption nofun)]

theorem partly_nil (raw : RawEndpoint) : raw.partly [] = {} := by
  simp [partly]

theorem reads (raw : RawEndpoint) {later : Tree} (variant : Variant shape raw.toJson later) :
    Reads RawEndpoint.read later raw := by
  rw [RawEndpoint.read, ← raw.partly_nil]
  exact raw.reflects.reads variant

theorem written (raw : RawEndpoint) : Written shape raw.toJson := by
  have each : ∀ part ∈ raw.parts, Written part.shape part.value := by
    simp only [parts, List.mem_cons, List.not_mem_nil, or_false, forall_eq_or_imp, forall_eq]
    refine ⟨.option fun _ => ?_, .option fun _ => ?_, .option fun _ => ?_, .option fun _ => ?_⟩
    · trivial
    · exact hasText_ofInt _
    · trivial
    · trivial
  exact .record each

end RawEndpoint

namespace PoolSettings

def shape : Shape :=
  .record [("enabled", .leaf), ("auto", .leaf), ("endpoints", .list RawEndpoint.shape)]

def parts (pool : PoolSettings) : List Part :=
  [⟨"enabled", .leaf, .ofOption .bool pool.enabled⟩,
    ⟨"auto", .leaf, .ofOption .bool pool.auto⟩,
    ⟨"endpoints", .list RawEndpoint.shape, .list (pool.endpoints.map RawEndpoint.toJson)⟩]

/-- The pool settings with the parts of the given names alone. -/
def partly (pool : PoolSettings) (seen : List String) : PoolSettings where
  enabled := if "enabled" ∈ seen then pool.enabled else none
  auto := if "auto" ∈ seen then pool.auto else none
  endpoints := if "endpoints" ∈ seen then pool.endpoints else []

theorem reflects (pool : PoolSettings) : Reflects fields pool.parts pool.partly pool where
  distinct := by simp [parts]
  only := by simp [fields, parts]
  known := by
    simp only [parts, List.mem_cons, List.not_mem_nil, or_false, forall_eq_or_imp, forall_eq]
    refine ⟨⟨_, rfl, ?_⟩, ⟨_, rfl, ?_⟩, ⟨_, rfl, ?_⟩⟩
    all_goals rintro seen later ⟨⟩
    · exact (reads_optional _ reads_bool nofun).map (by simp [partly])
    · exact (reads_optional _ reads_bool nofun).map (by simp [partly])
    · rename_i each
      have endpoints := each.reads RawEndpoint.reads
      exact (reads_list endpoints).map (by simp [partly])
  whole := by
    intro seen given
    simp only [parts, List.mem_cons, List.not_mem_nil, or_false, forall_eq_or_imp, forall_eq]
      at given
    obtain ⟨enabled, auto, endpoints⟩ := given
    have none (unset : Unset (.list (pool.endpoints.map RawEndpoint.toJson))) :
        pool.endpoints = [] := by
      generalize written : pool.endpoints.map RawEndpoint.toJson = items at unset
      cases unset
      exact List.map_eq_nil_iff.mp written
    rw [partly, keeps enabled (Unset.ofOption nofun), keeps auto (Unset.ofOption nofun),
      keeps endpoints none]

theorem partly_nil (pool : PoolSettings) : pool.partly [] = {} := by
  simp [partly]

theorem reads (pool : PoolSettings) {later : Tree} (variant : Variant shape pool.toJson later) :
    Reads PoolSettings.read later pool := by
  rw [PoolSettings.read, ← pool.partly_nil]
  exact pool.reflects.reads variant

theorem eq_default {pool : PoolSettings} (unset : Unset pool.toJson) : pool = {} :=
  (pool.reflects.eq_of_unset unset).symm.trans pool.partly_nil

theorem written (pool : PoolSettings) : Written shape pool.toJson := by
  have endpoints : Written (.list RawEndpoint.shape)
      (.list (pool.endpoints.map RawEndpoint.toJson)) := by
    refine .list fun item found => ?_
    obtain ⟨raw, _, rfl⟩ := List.mem_map.mp found
    exact raw.written
  have each : ∀ part ∈ pool.parts, Written part.shape part.value := by
    simp only [parts, List.mem_cons, List.not_mem_nil, or_false, forall_eq_or_imp, forall_eq]
    refine ⟨.option fun _ => ?_, .option fun _ => ?_, endpoints⟩
    · trivial
    · trivial
  exact .record each

end PoolSettings

namespace Settings

def shape : Shape :=
  .record [("session_limits", .map), ("timeout_minutes", .map), ("live_updates", .leaf),
    ("kill_grace_secs", .leaf), ("server_pool", PoolSettings.shape)]

def parts (settings : Settings) : List Part :=
  [⟨"session_limits", .map, settings.sessionLimits.toJson⟩,
    ⟨"timeout_minutes", .map, settings.timeoutMinutes.toJson⟩,
    ⟨"live_updates", .leaf, .ofOption .bool settings.liveUpdates⟩,
    ⟨"kill_grace_secs", .leaf, .ofOption (fun secs => .ofNat secs.toNat) settings.killGraceSecs⟩,
    ⟨"server_pool", PoolSettings.shape, settings.pool.toJson⟩]

/-- The settings with the parts of the given names alone. -/
def partly (settings : Settings) (seen : List String) : Settings where
  sessionLimits := if "session_limits" ∈ seen then settings.sessionLimits else .empty
  timeoutMinutes := if "timeout_minutes" ∈ seen then settings.timeoutMinutes else .empty
  liveUpdates := if "live_updates" ∈ seen then settings.liveUpdates else none
  killGraceSecs := if "kill_grace_secs" ∈ seen then settings.killGraceSecs else none
  pool := if "server_pool" ∈ seen then settings.pool else {}

theorem reflects (settings : Settings) :
    Reflects fields settings.parts settings.partly settings where
  distinct := by simp [parts]
  only := by simp [fields, parts]
  known := by
    simp only [parts, List.mem_cons, List.not_mem_nil, or_false, forall_eq_or_imp, forall_eq]
    refine ⟨⟨_, rfl, ?_⟩, ⟨_, rfl, ?_⟩, ⟨_, rfl, ?_⟩, ⟨_, rfl, ?_⟩, ⟨_, rfl, ?_⟩⟩
    all_goals intro seen later variant
    · exact (CategoryTable.reads variant).map (by simp [partly])
    · exact (CategoryTable.reads variant).map (by simp [partly])
    · cases variant
      exact (reads_optional _ reads_bool nofun).map (by simp [partly])
    · cases variant
      exact (reads_optional _ reads_uint64 nofun).map (by simp [partly])
    · exact (settings.pool.reads variant).map (by simp [partly])
  whole := by
    intro seen given
    simp only [parts, List.mem_cons, List.not_mem_nil, or_false, forall_eq_or_imp, forall_eq]
      at given
    obtain ⟨sessions, timeouts, live, grace, pool⟩ := given
    rw [partly, keeps sessions CategoryTable.eq_empty, keeps timeouts CategoryTable.eq_empty,
      keeps live (Unset.ofOption nofun), keeps grace (Unset.ofOption nofun),
      keeps pool PoolSettings.eq_default]

theorem partly_nil (settings : Settings) : settings.partly [] = {} := by
  simp [partly]

theorem reads (settings : Settings) {later : Tree}
    (variant : Variant shape settings.toJson later) : Reads Settings.read later settings := by
  rw [Settings.read, ← settings.partly_nil]
  exact settings.reflects.reads variant

theorem written (settings : Settings) : Written shape settings.toJson := by
  have each : ∀ part ∈ settings.parts, Written part.shape part.value := by
    simp only [parts, List.mem_cons, List.not_mem_nil, or_false, forall_eq_or_imp, forall_eq]
    refine ⟨settings.sessionLimits.written, settings.timeoutMinutes.written,
      .option fun _ => ?_, .option fun secs => ?_, settings.pool.written⟩
    · trivial
    · exact hasText_ofInt secs.toNat
  exact .record each

/-! ## Loading -/

/-- The settings have a limit for the category. -/
def Names (settings : Settings) (category : Category) : Prop :=
  settings.sessionLimits category ≠ none ∨ settings.timeoutMinutes category ≠ none

theorem mem_configured (settings : Settings) (category : Category) :
    category ∈ settings.configured ↔ settings.Names category := by
  simp [configured, Names, CategoryTable.keys, category.mem_all, Option.isSome_iff_ne_none]

theorem validate_fixed {settings : Settings} {category : Category}
    (names : settings.Names category) (fixed : category.isConfigurable = false) :
    settings.validate = .error (.fixedCategory category) := by
  have only (other : Category) (fixed' : other.isConfigurable = false) : other = category :=
    (Category.eq_cffConverter fixed').trans (Category.eq_cffConverter fixed).symm
  cases found : settings.configured.find? (fun category => !category.isConfigurable) with
  | none =>
      have open' := List.find?_eq_none.mp found category ((mem_configured _ _).mpr names)
      simp [fixed] at open'
  | some other =>
      have fixed' : other.isConfigurable = false := by simpa using List.find?_some found
      rw [validate, found, only other fixed']

section Open

variable {settings : Settings}
  (configurable : ∀ category, settings.Names category → category.isConfigurable = true)

include configurable

theorem find?_configured :
    settings.configured.find? (fun category => !category.isConfigurable) = none := by
  rw [List.find?_eq_none]
  intro category found
  simp [configurable category ((mem_configured _ _).mp found)]

theorem validate_short
    (short : ∀ seconds, settings.killGraceSecs = some seconds →
      1 ≤ seconds.toNat ∧ seconds.toNat ≤ 60) : settings.validate = .ok () := by
  rw [validate, find?_configured configurable]
  cases grace : settings.killGraceSecs with
  | none => rfl
  | some seconds => exact if_pos (short seconds grace)

theorem validate_long {seconds : UInt64} (grace : settings.killGraceSecs = some seconds)
    (long : ¬(1 ≤ seconds.toNat ∧ seconds.toNat ≤ 60)) :
    settings.validate = .error (.invalidKillGrace seconds) := by
  rw [validate, find?_configured configurable, grace]
  exact if_neg long

end Open

theorem parse_variant {settings : Settings} {later : Tree} {text : String}
    (variant : Variant shape settings.toJson later) (written : Writes later text.toList) :
    parse text = .ok settings :=
  (settings.reads variant).whole written

/-- What is written is read back. -/
theorem parse_toJson (settings : Settings) :
    parse (String.ofList (compact settings.toJson)) = .ok settings ∧
      parse (String.ofList (pretty 0 settings.toJson)) = .ok settings := by
  obtain ⟨variant, texts⟩ := settings.written
  have read {text : List Char} (spelled : Spells settings.toJson.tree text) :
      parse (String.ofList text) = .ok settings := by
    refine parse_variant variant ?_
    rw [String.toList_ofList]
    exact writes_of_spells spelled
  exact ⟨read (spells_compact texts), read (spells_pretty 0 texts)⟩

theorem load_encode (path : String) {settings : Settings} {text : String}
    (parsed : parse text = .ok settings) :
    load path (.ok (Text.encode text)) = settings.validate.map fun _ => settings := by
  simp only [load, parseFile, Text.decode?_encode, parsed]
  cases settings.validate <;> rfl

/--
Settings are read back from every text of every variant of what is written for them, and are
loaded unless they have a limit for a fixed category or, if they do not, a grace period that
is none or too long.
-/
theorem load_written {settings : Settings} {later : Tree} {text : String}
    (variant : Variant shape settings.toJson later) (written : Writes later text.toList) :
    parse text = .ok settings ∧
      ∀ path,
        (∀ category, settings.Names category → category.isConfigurable = false →
          load path (.ok (Text.encode text)) = .error (.fixedCategory category)) ∧
        ((∀ category, settings.Names category → category.isConfigurable = true) →
          (∀ seconds, settings.killGraceSecs = some seconds →
            ¬(1 ≤ seconds.toNat ∧ seconds.toNat ≤ 60) →
            load path (.ok (Text.encode text)) = .error (.invalidKillGrace seconds)) ∧
          ((∀ seconds, settings.killGraceSecs = some seconds →
              1 ≤ seconds.toNat ∧ seconds.toNat ≤ 60) →
            load path (.ok (Text.encode text)) = .ok settings)) := by
  have parsed := parse_variant variant written
  refine ⟨parsed, fun path => ?_⟩
  rw [load_encode path parsed]
  refine ⟨fun category names fixed => ?_, fun configurable =>
    ⟨fun seconds grace long => ?_, fun short => ?_⟩⟩
  · rw [validate_fixed names fixed]
    rfl
  · rw [validate_long configurable grace long]
    rfl
  · rw [validate_short configurable short]
    rfl

/-- A session limit and one server. -/
def oneServer : Settings where
  sessionLimits := CategoryTable.empty.insert .qpdf 3
  pool := { endpoints := [{ port := some 2002 }] }

/-- The same in another order, with a note and a name that settings do not have. -/
def oneServerNoted : Value :=
  .object [("note", .list [.number "1e400", .null]),
    ("server_pool", .object [("endpoints", .list [.object [("name", .text "second"),
      ("port", .ofInt 2002)]])]),
    ("session_limits", .object [("qpdf", .ofInt 3)])]

theorem variant_oneServerNoted : Variant shape oneServer.toJson oneServerNoted.tree := by
  have endpoint : Variant RawEndpoint.shape (RawEndpoint.toJson { port := some 2002 })
      (Value.object [("name", .text "second"), ("port", .ofInt 2002)]).tree :=
    @Variant.record _ _ [("port", (Value.ofInt 2002).tree)] [("name", (Value.text "second").tree)] _
      (.drop .null (.keep .leaf (.drop .null (.drop .null .nil)))) (by simp) (.swap _ _ _)
  have pool : Variant PoolSettings.shape oneServer.pool.toJson (Value.object [("endpoints",
      .list [.object [("name", .text "second"), ("port", .ofInt 2002)]])]).tree :=
    @Variant.record _ _ _ [] _
      (.drop .null (.drop .null (.keep (.list (.cons endpoint .nil)) .nil))) (by simp) (.refl _)
  have timeouts : Unset oneServer.timeoutMinutes.toJson :=
    .object (by simp [oneServer, CategoryTable.empty])
  exact @Variant.record _ _ _ [("note", (Value.list [.number "1e400", .null]).tree)] _
    (.keep (.map (.refl _)) (.drop timeouts (.drop .null (.drop .null (.keep pool .nil)))))
    (by simp) (List.reverse_perm [_, _, _])

theorem hasText_oneServerNoted : HasText oneServerNoted := by
  have large : IsNumber "1e400".toList :=
    @IsNumber.parts [] ['1'] [] ['e', '4', '0', '0'] (.inl rfl)
      (.digits (by decide) (by simp)) .none
      (@IsExponent.some 'e' [] ['4', '0', '0'] (.inl rfl) (.inl rfl) ⟨by simp, by simp⟩)
  simp only [oneServerNoted, HasText, HaveTexts, MembersHaveTexts, hasText_ofInt, large, and_true]

theorem load_written_oneServer :
    let text := String.ofList (compact oneServerNoted)
    parse text = .ok oneServer ∧
      load "settings.json" (.ok (Text.encode text)) = .ok oneServer := by
  have written : Writes oneServerNoted.tree (String.ofList (compact oneServerNoted)).toList := by
    rw [String.toList_ofList]
    exact writes_of_spells (spells_compact hasText_oneServerNoted)
  obtain ⟨parsed, loads⟩ := load_written variant_oneServerNoted written
  have configurable (category : Category) (names : oneServer.Names category) :
      category.isConfigurable = true := by
    have qpdf : category = .qpdf := by
      simpa [Names, oneServer, CategoryTable.insert, CategoryTable.empty] using names
    rw [qpdf]
    rfl
  exact ⟨parsed, ((loads "settings.json").2 configurable).2 nofun⟩

end Settings

end Turnstile
