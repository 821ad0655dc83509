import Turnstile.Proofs.Endpoint.Pointing
import Turnstile.Proofs.Endpoint.Resolve
import Turnstile.Proofs.Text.Trim

/-!
# Servers that can be used

A server can be used if every command that is accepted is still accepted when it was
pointed at the server.  That depends on its host alone: a host in whose midst a
character stands that no token may hold makes every command unacceptable, and reading
a configured endpoint leaves such a host as it is.
-/

namespace Turnstile

open Command

namespace Endpoint

/-- Every command that is accepted may be pointed at the server. -/
def IsUsable (endpoint : Endpoint) : Prop :=
  ∀ (allowed : Allowlist) (probe : String → PathKind) (argv : List String),
    check allowed probe argv = .ok () → check allowed probe (apply argv endpoint) = .ok ()

/-- A text that holds NUL, or breaks its line between two characters that are no blanks. -/
def Garbled (text : String) : Prop :=
  ∃ before c after, text.toList = before ++ c :: after ∧ (c = '\x00' ∨ (c = '\r' ∨ c = '\n') ∧
    (∃ x ∈ before, Text.isBlank x = false) ∧ ∃ x ∈ after, Text.isBlank x = false)

theorem hasUnsafe_trim_iff {text : String} :
    hasUnsafe (Text.trim text) = true ↔ Garbled text := by
  simp only [hasUnsafe, Text.trim, String.toList_ofList, List.any_eq_true, Text.mem_trimChars_iff,
    Garbled]
  constructor
  · rintro ⟨c, ⟨before, after, split, kept⟩, bad⟩
    simp only [isUnsafe, Bool.or_eq_true, beq_iff_eq, or_assoc] at bad
    refine ⟨before, c, after, split, bad.imp_right fun breaks => ⟨breaks, ?_⟩⟩
    have blank : Text.isBlank c = true := by rcases breaks with rfl | rfl <;> rfl
    exact kept.resolve_left (by simp [blank])
  · rintro ⟨before, c, after, split, bad⟩
    refine ⟨c, ⟨before, after, split, ?_⟩, ?_⟩
    · rcases bad with rfl | ⟨_, inside⟩
      · exact .inl rfl
      · exact .inr inside
    · rcases bad with rfl | ⟨rfl | rfl, _⟩ <;> rfl

/-! ## The host of a server -/

section Host

variable {allowed : Allowlist} {probe : String → PathKind} {argv : List String}
  {endpoint : Endpoint}

theorem check_apply_of_unsafe_host (bad : hasUnsafe endpoint.host = true)
    (accepted : check allowed probe argv = .ok ()) :
    check allowed probe (apply argv endpoint) = .error (.unsafeCharacters 2) := by
  obtain ⟨executable, arguments, rfl, acceptable⟩ := check_eq_ok_iff.mp accepted
  have clean : hasUnsafe executable = false := by
    rw [Bool.eq_false_iff, Ne, ← unsafeAt_singleton_iff]
    exact (clean_cons_iff.mp acceptable.clean).1
  have found : (endpoint.arguments ++ stripTail arguments).findIdx? hasUnsafe = some 1 := by
    have flag : hasUnsafe "--host" = false := hasUnsafe_flag (by decide)
    simp [Endpoint.arguments, List.findIdx?_cons, flag, bad]
  rw [apply_cons, check, inquire_cons, clean, found]
  rfl

/-- A server can be used exactly if its host holds no character that no token may hold. -/
theorem isUsable_iff : endpoint.IsUsable ↔ hasUnsafe endpoint.host = false := by
  rw [← Bool.not_eq_true]
  constructor
  · intro usable bad
    have accepted : check .standard (fun _ => .missing) ["qpdf"] = .ok () := by decide
    have refused := check_apply_of_unsafe_host bad accepted
    rw [usable _ _ _ accepted] at refused
    cases refused
  · intro clean allowed probe argv accepted
    obtain ⟨executable, arguments, rfl, acceptable⟩ := check_eq_ok_iff.mp accepted
    have alike := checkedAlike allowed probe executable arguments endpoint
    rw [alike.same (.inr ⟨(clean_cons_iff.mp acceptable.clean).2, ?_⟩), accepted]
    rwa [unsafeAt_singleton_iff]

end Host

end Endpoint

/-! ## Configured servers -/

namespace RawEndpoint

open Endpoint (Garbled)

theorem normalHost_some (text : String) : normalHost (some text) =
    if Text.trim text = "" then Endpoint.defaultHost else Text.trim text := by
  by_cases empty : Text.trim text = "" <;> simp [normalHost, usableHost?, Option.filter, empty]

theorem hasUnsafe_normalHost_iff {host : Option String} :
    hasUnsafe (normalHost host) = true ↔ ∃ text, host = some text ∧ Garbled text := by
  have usual : hasUnsafe Endpoint.defaultHost = false := by decide
  cases host with
  | none => simp [normalHost, usableHost?, usual]
  | some text =>
      simp only [Option.some.injEq, exists_eq_left', ← Endpoint.hasUnsafe_trim_iff,
        normalHost_some]
      split
      · rename_i empty
        have clean : hasUnsafe "" = false := by decide
        simp only [empty, usual, clean]
      · rfl

theorem isUsable_normalize (raw : RawEndpoint) :
    raw.normalize.1.IsUsable ↔ ∀ text, raw.host = some text → ¬ Garbled text := by
  rw [Endpoint.isUsable_iff, ← Bool.not_eq_true]
  change ¬ hasUnsafe (normalHost raw.host) = true ↔ _
  rw [hasUnsafe_normalHost_iff]
  simp

end RawEndpoint

/-- The host of no server that the settings configure for the pool is garbled. -/
def Settings.NamesClearly (settings : Settings) : Prop :=
  settings.poolEnabled = true → settings.autoPool = false →
    ∀ raw ∈ settings.pool.endpoints, raw.isUsable = true →
      ∀ text, raw.host = some text → ¬ Endpoint.Garbled text

namespace Endpoint

theorem isUsable_plain (port : UInt16) : (plain defaultHost port).IsUsable :=
  isUsable_iff.mpr (by decide : hasUnsafe defaultHost = false)

theorem forall_configuredList_iff {entries : List RawEndpoint} :
    (∀ endpoint ∈ (configuredList entries).1, endpoint.IsUsable) ↔
      ∀ raw ∈ entries, raw.isUsable = true → ∀ text, raw.host = some text → ¬ Garbled text := by
  simp only [configuredList, List.forall_mem_map, List.mem_filter, and_imp,
    RawEndpoint.isUsable_normalize]

theorem forall_resolve_iff {settings : Settings} :
    (∀ endpoint ∈ (resolve settings).1, endpoint.IsUsable) ↔ settings.NamesClearly := by
  rw [Settings.NamesClearly, ← forall_configuredList_iff]
  cases enabled : settings.poolEnabled with
  | false => simp [resolve, enabled]
  | true =>
      rcases resolve_eq enabled with ⟨auto, same⟩ | ⟨manual, ⟨none, same⟩ | ⟨_, same⟩⟩ <;> rw [same]
      · refine iff_of_true ?_ (by simp [auto])
        intro endpoint member
        obtain ⟨index, _, rfl⟩ := List.mem_map.mp member
        exact isUsable_plain _
      · refine iff_of_true ?_ (by simp [none])
        intro endpoint member
        rw [List.mem_singleton.mp member]
        exact isUsable_plain _
      · simp [manual]

/--
A server takes every accepted command or none.  One that was configured takes them unless its
host is garbled, and so do all servers of a pool unless one that is configured for it is.
-/
theorem takes_all_or_none (raw : RawEndpoint) (settings : Settings) :
    (raw.normalize.1.IsUsable ↔ ∀ text, raw.host = some text → ¬ Garbled text) ∧
    ((∀ endpoint ∈ (resolve settings).1, endpoint.IsUsable) ↔ settings.NamesClearly) ∧
    ∀ endpoint : Endpoint, ¬ endpoint.IsUsable → ∀ allowed probe argv,
      check allowed probe argv = .ok () →
        check allowed probe (apply argv endpoint) = .error (.unsafeCharacters 2) := by
  refine ⟨raw.isUsable_normalize, forall_resolve_iff, ?_⟩
  intro endpoint unusable allowed probe argv accepted
  rw [isUsable_iff, Bool.not_eq_false] at unusable
  exact check_apply_of_unsafe_host unusable accepted

/-- A configured server whose host breaks its line. -/
def brokenRaw : RawEndpoint where
  host := some "office\ninternal"
  port := some 2003

/-- Settings can put into the pool only a server that no accepted command can be pointed at. -/
theorem broken_host_refuses :
    check .standard (fun _ => .missing) ["unoconvert", "in.odt"] = .ok () ∧
      check .standard (fun _ => .missing)
          (apply ["unoconvert", "in.odt"] brokenRaw.normalize.1) =
        .error (.unsafeCharacters 2) ∧
      (resolve { pool := { auto := some false, endpoints := [brokenRaw] } }).1 =
        [brokenRaw.normalize.1] := by
  have accepted : check .standard (fun _ => .missing) ["unoconvert", "in.odt"] = .ok () := by
    decide
  have garbled : Garbled "office\ninternal" :=
    ⟨"office".toList, '\n', "internal".toList, rfl,
      .inr ⟨.inr rfl, ⟨'o', by decide, by decide⟩, ⟨'i', by decide, by decide⟩⟩⟩
  refine ⟨accepted, check_apply_of_unsafe_host ?_ accepted, ?_⟩
  · exact RawEndpoint.hasUnsafe_normalHost_iff.mpr ⟨_, rfl, garbled⟩
  · rfl

end Endpoint

end Turnstile
