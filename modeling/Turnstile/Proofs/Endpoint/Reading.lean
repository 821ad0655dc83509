import Mathlib.Data.List.TakeDrop
import Turnstile.Endpoint.Flags

/-!
# Reading endpoint flags

A client takes its server from its arguments, from left to right.  From a command
that was pointed at a server it reads that server and no other, whatever flags the
command came with.
-/

namespace Turnstile

theorem RoutingHint.ofName?_name (hint : RoutingHint) : ofName? hint.name = some hint := by
  cases hint <;> decide

theorem Protocol.ofName?_name (protocol : Protocol) : ofName? protocol.name = some protocol := by
  cases protocol <;> decide

namespace Endpoint

/-! ## How a client reads -/

/-- The flag and value of a token that begins with a flag and an equals sign. -/
def joined? (token : String) : Option (String × String) :=
  flags.findSome? fun flag =>
    if flag.toList ++ ['='] <+: token.toList then
      some (flag, .ofList (token.toList.drop (flag.length + 1)))
    else none

/-- The flags in some arguments, with their values; the last argument may be a flag without one. -/
def findings : List String → List (String × Option String)
  | [] => []
  | [token] =>
    if token ∈ flags then [(token, none)]
    else (joined? token).toList.map fun found => (found.1, some found.2)
  | token :: value :: rest =>
    if token ∈ flags then (token, some value) :: findings rest
    else ((joined? token).toList.map fun found => (found.1, some found.2)) ++
      findings (value :: rest)

/-- The tokens among some arguments that are no flags and no values of flags. -/
def others : List String → List String
  | [] => []
  | [token] => if token ∈ flags ∨ joined? token ≠ none then [] else [token]
  | token :: value :: rest =>
    if token ∈ flags then others rest
    else if joined? token ≠ none then others (value :: rest)
    else token :: others (value :: rest)

/-- The value of a flag: of several the last counts. -/
def valueOf? (flag : String) (found : List (String × Option String)) : Option String :=
  (found.reverse.lookup flag).join

/-- A port in decimal digits. -/
def port? (text : String) : Option UInt16 :=
  let value := Nat.ofDigitChars 10 text.toList 0
  if text ≠ "" ∧ text.toList.all Char.isDigit ∧ value < UInt16.size then some (.ofNat value)
  else none

/-- The server that a client takes from a command; its first token is not an argument. -/
def read? (argv : List String) : Option Endpoint := do
  let found := findings argv.tail
  let host ← valueOf? "--host" found
  let port ← (valueOf? "--port" found).bind port?
  let hint ← (valueOf? "--host-location" found).elim (some .auto) RoutingHint.ofName?
  let protocol ← (valueOf? "--protocol" found).elim (some .http) Protocol.ofName?
  return { host, port, hint, protocol }

/-- A flag takes its value from the next token, whatever that looks like, or from its own. -/
example :
    findings ["--host=a=b", "in.odt", "--port", "--host", "--ports=1", "--protocol"] =
      [("--host", some "a=b"), ("--port", some "--host"), ("--protocol", none)] := by
  decide

/-! ## Flags and other tokens -/

/-- A token that is no endpoint flag, alone or joined to a value. -/
def IsPlain (token : String) : Prop :=
  token ∉ flags ∧ inlineFlag? token = none

theorem notMem_toList_of_mem_flags {flag : String} (known : flag ∈ flags) :
    '=' ∉ flag.toList := by
  revert flag
  decide

/-- A token that begins with a flag and an equals sign is seen to do so. -/
theorem inlineFlag?_of_mem_flags {flag token : String} {value : List Char} (known : flag ∈ flags)
    (joins : token.toList = flag.toList ++ '=' :: value) :
    inlineFlag? token = some (flag, .ofList value) := by
  have before : ∀ c ∈ flag.toList, decide (c ≠ '=') = true := by
    intro c member
    rw [decide_eq_true_eq]
    rintro rfl
    exact notMem_toList_of_mem_flags known member
  have split : token.toList.span (· ≠ '=') = (flag.toList, '=' :: value) := by
    rw [joins, List.span_eq_takeWhile_dropWhile, List.takeWhile_append_of_pos before,
      List.dropWhile_append_of_pos before]
    simp
  rw [inlineFlag?, split]
  simp [known]

/-- Both ways to look for an equals sign after a flag find the same tokens. -/
theorem joined?_eq_none_iff {token : String} : joined? token = none ↔ inlineFlag? token = none := by
  rw [joined?, List.findSome?_eq_none_iff]
  constructor
  · intro unjoined
    unfold inlineFlag?
    split
    · rename_i flag value split
      refine if_neg fun known => ?_
      have whole := List.takeWhile_append_dropWhile (p := (· ≠ '=')) (l := token.toList)
      rw [List.span_eq_takeWhile_dropWhile, Prod.mk.injEq] at split
      rw [split.1, split.2] at whole
      have joins : (String.ofList flag).toList ++ ['='] <+: token.toList :=
        ⟨value, by simpa using whole⟩
      have unjoined := unjoined _ known
      rw [if_pos joins] at unjoined
      cases unjoined
    · rfl
  · intro inline flag known
    refine if_neg ?_
    rintro ⟨value, joins⟩
    rw [List.append_assoc] at joins
    rw [inlineFlag?_of_mem_flags known joins.symm] at inline
    cases inline

theorem findings_cons_of_plain {token : String} (plain : IsPlain token) (rest : List String) :
    findings (token :: rest) = findings rest := by
  cases rest <;> simp [findings, plain.1, joined?_eq_none_iff.mpr plain.2]

theorem findings_of_plain {tokens : List String} (plain : ∀ token ∈ tokens, IsPlain token) :
    findings tokens = [] := by
  induction tokens with
  | nil => rfl
  | cons token rest ih =>
      rw [findings_cons_of_plain (plain token List.mem_cons_self)]
      exact ih fun other member => plain other (List.mem_cons_of_mem _ member)

/-! ## Taking flags away -/

/-- A flag on its own takes the next token with it. -/
theorem stripTail_flag {flag : String} (known : flag ∈ flags) (value : String)
    (rest : List String) : stripTail (flag :: value :: rest) = stripTail rest := by
  rw [stripTail, if_pos known]

theorem findings_flag {flag : String} (known : flag ∈ flags) (value : String)
    (rest : List String) : findings (flag :: value :: rest) = (flag, some value) :: findings rest := by
  rw [findings, if_pos known]

/-- No flag is left. -/
theorem isPlain_of_mem_stripTail {tokens : List String} {token : String}
    (member : token ∈ stripTail tokens) : IsPlain token := by
  fun_induction stripTail tokens with
  | case1 => cases member
  | case2 => cases member
  | case3 other plain =>
      cases List.mem_singleton.mp member
      exact ⟨fun known => plain (.inl known), by simpa using fun joined => plain (.inr joined)⟩
  | case4 flag value rest known ih => exact ih member
  | case5 joined value rest unknown inline ih => exact ih member
  | case6 other value rest unknown split ih =>
      rcases List.mem_cons.mp member with rfl | later
      · exact ⟨unknown, by simpa using split⟩
      · exact ih later

theorem stripTail_of_plain {tokens : List String} (plain : ∀ token ∈ tokens, IsPlain token) :
    stripTail tokens = tokens := by
  fun_induction stripTail tokens with
  | case1 => rfl
  | case2 token flagged =>
      obtain ⟨unknown, split⟩ := plain token (by simp)
      simp [unknown, split] at flagged
  | case3 => rfl
  | case4 flag value rest known => exact absurd known (plain flag (by simp)).1
  | case5 token value rest unknown inline =>
      rw [(plain token (by simp)).2] at inline
      cases inline
  | case6 token value rest unknown split ih =>
      rw [ih fun other member => plain other (List.mem_cons_of_mem _ member)]

/-- What is taken away is what a client would have read as a flag or as its value. -/
theorem stripTail_eq_others (tokens : List String) : stripTail tokens = others tokens := by
  have joined (token : String) : joined? token ≠ none ↔ (inlineFlag? token).isSome = true := by
    rw [Ne, joined?_eq_none_iff, Option.isSome_iff_ne_none]
  fun_induction stripTail tokens with
  | case1 => rfl
  | case2 token flagged => rw [others, if_pos (flagged.imp_right (joined token).mpr)]
  | case3 token plain =>
      rw [others, if_neg fun flagged => plain (flagged.imp_right (joined token).mp)]
  | case4 flag value rest known ih => rw [others, if_pos known, ih]
  | case5 token value rest unknown inline ih =>
      rw [others, if_neg unknown, if_pos ((joined token).mpr inline), ih]
  | case6 token value rest unknown split ih =>
      rw [others, if_neg unknown, if_neg fun found => split ((joined token).mp found), ih]

theorem stripTail_sublist (tokens : List String) : (stripTail tokens).Sublist tokens := by
  fun_induction stripTail tokens with
  | case1 => exact .slnil
  | case2 => exact List.nil_sublist _
  | case3 => exact .refl _
  | case4 flag value rest known ih => exact (ih.cons value).cons flag
  | case5 token value rest unknown inline ih => exact ih.cons token
  | case6 token value rest unknown split ih => exact ih.cons_cons token

/-! ## The flags of one server -/

/-- The flags that point a client at a server, with their values. -/
def ownFlags (endpoint : Endpoint) : List (String × Option String) :=
  [("--host", some endpoint.host), ("--port", some (toString endpoint.port))] ++
    (if endpoint.hint = .auto then [] else [("--host-location", some endpoint.hint.name)]) ++
    (if endpoint.protocol = .http then [] else [("--protocol", some endpoint.protocol.name)])

theorem stripTail_arguments_append (endpoint : Endpoint) (rest : List String) :
    stripTail (endpoint.arguments ++ rest) = stripTail rest := by
  obtain ⟨host, port, hint, protocol⟩ := endpoint
  cases hint <;> cases protocol <;>
    simp (disch := decide) [arguments, stripTail_flag]

theorem findings_arguments_append (endpoint : Endpoint) (rest : List String) :
    findings (endpoint.arguments ++ rest) = endpoint.ownFlags ++ findings rest := by
  obtain ⟨host, port, hint, protocol⟩ := endpoint
  cases hint <;> cases protocol <;>
    simp (disch := decide) [arguments, ownFlags, findings_flag]

theorem nodup_ownFlags (endpoint : Endpoint) : (endpoint.ownFlags.map Prod.fst).Nodup := by
  obtain ⟨host, port, hint, protocol⟩ := endpoint
  cases hint <;> cases protocol <;> simp [ownFlags]

theorem port?_toString (port : UInt16) : port? (toString port) = some port := by
  have digits : (toString port).toList = Nat.toDigits 10 port.toNat := Nat.toList_repr
  have value : Nat.ofDigitChars 10 (toString port).toList 0 = port.toNat := by
    rw [digits, Nat.ofDigitChars_ten_toDigits]
  have some : toString port ≠ "" := by
    intro none
    rw [none] at digits
    exact Nat.toDigits_ne_nil digits.symm
  have decimal : (toString port).toList.all Char.isDigit = true := by
    rw [digits, List.all_eq_true]
    exact fun c member => Nat.isDigit_of_mem_toDigits (by omega) (by omega) member
  simp only [port?, value]
  rw [if_pos ⟨some, decimal, port.toNat_lt⟩, UInt16.ofNat_toNat]

/-- From its flags alone the server is read back. -/
theorem read?_of_findings {argv : List String} {endpoint : Endpoint}
    (found : findings argv.tail = endpoint.ownFlags) : read? argv = some endpoint := by
  obtain ⟨host, port, hint, protocol⟩ := endpoint
  have number := port?_toString port
  cases hint <;> cases protocol <;>
    simp [read?, found, ownFlags, valueOf?, List.lookup_cons, number, RoutingHint.ofName?_name,
      Protocol.ofName?_name]

/-! ## A command that was pointed at a server -/

variable (executable : String) (arguments : List String) (endpoint : Endpoint)

theorem apply_cons :
    apply (executable :: arguments) endpoint =
      executable :: (endpoint.arguments ++ stripTail arguments) := by
  simp [apply, strip]

theorem strip_apply :
    strip (apply (executable :: arguments) endpoint) = strip (executable :: arguments) := by
  rw [apply_cons, strip, strip, stripTail_arguments_append,
    stripTail_of_plain fun token member => isPlain_of_mem_stripTail member]

theorem findings_apply :
    findings (apply (executable :: arguments) endpoint).tail = endpoint.ownFlags := by
  rw [apply_cons, List.tail_cons, findings_arguments_append,
    findings_of_plain fun token member => isPlain_of_mem_stripTail member, List.append_nil]

/-- A command is the one given, pointed at a server and at no other. -/
structure PointsAt (executable : String) (arguments : List String) (endpoint : Endpoint)
    (pointed : List String) : Prop where
  /-- A client reads the server, whatever flags were given. -/
  read : read? pointed = some endpoint
  /-- It finds no flag twice. -/
  once : ((findings pointed.tail).map Prod.fst).Nodup
  /-- It may start to read at the executable, unless that has the form of a flag itself. -/
  whole : IsPlain executable → findings pointed = findings pointed.tail
  stripped : strip pointed = strip (executable :: arguments)
  /-- Nothing of the server is left when the command is pointed at another one. -/
  replaced : ∀ other, apply pointed other = apply (executable :: arguments) other
  /-- The executable stays in front, and of its arguments those that are no flags stay in order. -/
  kept : pointed = executable :: (endpoint.arguments ++ others arguments) ∧
    strip (executable :: arguments) = executable :: others arguments ∧
      (others arguments).Sublist arguments ∧ ∀ token ∈ others arguments, IsPlain token

/-- Every command can be pointed at every server, again and again. -/
theorem pointsAt_apply :
    PointsAt executable arguments endpoint (apply (executable :: arguments) endpoint) := by
  have found := findings_apply executable arguments endpoint
  have stripped := strip_apply executable arguments endpoint
  constructor
  case read => exact read?_of_findings found
  case once => rw [found]; exact nodup_ownFlags endpoint
  case whole =>
    intro plain
    rw [apply_cons, findings_cons_of_plain plain, List.tail_cons]
  case stripped => exact stripped
  case replaced =>
    intro other
    rw [apply, stripped, apply]
  case kept =>
    rw [← stripTail_eq_others]
    refine ⟨apply_cons _ _ _, rfl, stripTail_sublist arguments, ?_⟩
    exact fun token member => isPlain_of_mem_stripTail member

/-- Values that look like flags, a flag without a value and a joined one do no harm. -/
example :
    apply ["unoconvert", "--port=1", "in.odt", "--protocol", "--host", "--port"]
        ⟨"--host=x", 80, .auto, .https⟩ =
      ["unoconvert", "--host", "--host=x", "--port", "80", "--protocol", "https", "in.odt"] := by
  decide

end Endpoint

end Turnstile
