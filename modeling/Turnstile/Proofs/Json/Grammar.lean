import Mathlib.Data.List.Basic
import Mathlib.Data.List.Forall2
import Turnstile.Json.Number
import Turnstile.Json.Value

/-!
# Texts of JSON values

Which texts spell a JSON value.  A value has many: blanks may stand between any two
of its parts, and a string may be written with more escapes than it needs.  The text
that is written on one line is one of them, and so is the indented one.  Some texts
spell more than a value: their strings hold halves of surrogate pairs that stand alone.
-/

namespace Turnstile.Json

/-! ## Blanks -/

def Blank (cs : List Char) : Prop :=
  ∀ c ∈ cs, isSpace c = true

/-- What may follow a value: nothing, a blank, a comma or a closing bracket. -/
def Follows (rest : List Char) : Prop :=
  ∀ c, rest.head? = some c → isSpace c = true ∨ c = ',' ∨ c = ']' ∨ c = '}'

theorem blank_nil : Blank [] :=
  fun _ member => absurd member List.not_mem_nil

theorem skipSpace_append {blanks : List Char} (blank : Blank blanks) (rest : List Char) :
    skipSpace (blanks ++ rest) = skipSpace rest :=
  List.dropWhile_append_of_pos blank

theorem skipSpace_cons {c : Char} (visible : isSpace c = false) (rest : List Char) :
    skipSpace (c :: rest) = c :: rest :=
  List.dropWhile_cons_of_neg (by simp [visible])

theorem follows_nil : Follows [] :=
  nofun

theorem follows_cons {c : Char} {rest : List Char}
    (follows : isSpace c = true ∨ c = ',' ∨ c = ']' ∨ c = '}') : Follows (c :: rest) := by
  rintro _ ⟨⟩
  exact follows

/-- Blanks keep a value apart from what comes after them. -/
theorem follows_append {blanks rest : List Char} (blank : Blank blanks) (follows : Follows rest) :
    Follows (blanks ++ rest) := by
  cases blanks with
  | nil => exact follows
  | cons c blanks => exact follows_cons (.inl (blank c List.mem_cons_self))

/-! ## Strings -/

/-- Four hexadecimal digits and the number they stand for. -/
inductive HexCode : Nat → List Char → Prop where
  | word {a b c d : Char} {first second third fourth : Nat} (one : hexDigit? a = some first)
      (two : hexDigit? b = some second) (three : hexDigit? c = some third)
      (four : hexDigit? d = some fourth) :
      HexCode (((first * 16 + second) * 16 + third) * 16 + fourth) [a, b, c, d]

/-- A part of a string, as texts spell it. -/
inductive Letter where
  | char (c : Char)
  /-- Half of a surrogate pair, which stands alone. -/
  | half (code : Nat)

/-- The text spells the letters and ends with the closing quote. -/
inductive SpellsString : List Letter → List Char → Prop where
  | close : SpellsString [] ['"']
  | plain {c : Char} {cs : List Letter} {text : List Char} (visible : 0x20 ≤ c.toNat)
      (noQuote : c ≠ '"') (noBackslash : c ≠ '\\') (rest : SpellsString cs text) :
      SpellsString (.char c :: cs) (c :: text)
  | short {c letter : Char} {cs : List Letter} {text : List Char}
      (names : shortEscape? letter = some c) (rest : SpellsString cs text) :
      SpellsString (.char c :: cs) ('\\' :: letter :: text)
  | code {c : Char} {cs : List Letter} {word text : List Char} (hex : HexCode c.toNat word)
      (rest : SpellsString cs text) :
      SpellsString (.char c :: cs) ('\\' :: 'u' :: (word ++ text))
  /-- A character beyond the codes of four digits, as a pair of surrogates. -/
  | pair {c : Char} {cs : List Letter} {first second text : List Char} {lead trail : Nat}
      (hex : HexCode lead first) (hex' : HexCode trail second)
      (leads : isLeadSurrogate lead = true) (trails : isTrailSurrogate trail = true)
      (same : c.toNat = 0x10000 + (lead - 0xD800) * 0x400 + (trail - 0xDC00))
      (rest : SpellsString cs text) :
      SpellsString (.char c :: cs) ('\\' :: 'u' :: (first ++ '\\' :: 'u' :: (second ++ text)))
  | half {code : Nat} {cs : List Letter} {word text : List Char} (hex : HexCode code word)
      (surrogate : isLeadSurrogate code = true ∨ isTrailSurrogate code = true)
      (rest : SpellsString cs text) :
      SpellsString (.half code :: cs) ('\\' :: 'u' :: (word ++ text))

/-- The letters of a string of characters. -/
def letters (text : String) : List Letter :=
  text.toList.map .char

/-! ## Numbers -/

def IsDigits (cs : List Char) : Prop :=
  cs ≠ [] ∧ ∀ c ∈ cs, c.isDigit = true

/-- The whole part of a number, which starts with no zero that it could do without. -/
inductive IsWhole : List Char → Prop where
  | zero : IsWhole ['0']
  | digits {c : Char} {cs : List Char} (nonzero : c ≠ '0')
      (digits : ∀ d ∈ c :: cs, d.isDigit = true) : IsWhole (c :: cs)

inductive IsFraction : List Char → Prop where
  | none : IsFraction []
  | some {cs : List Char} (digits : IsDigits cs) : IsFraction ('.' :: cs)

inductive IsExponent : List Char → Prop where
  | none : IsExponent []
  | some {letter : Char} {sign cs : List Char} (isLetter : letter = 'e' ∨ letter = 'E')
      (isSign : sign = [] ∨ sign = ['+'] ∨ sign = ['-']) (digits : IsDigits cs) :
      IsExponent (letter :: (sign ++ cs))

inductive IsNumber : List Char → Prop where
  | parts {sign whole fraction exponent : List Char} (isSign : sign = [] ∨ sign = ['-'])
      (isWhole : IsWhole whole) (isFraction : IsFraction fraction)
      (isExponent : IsExponent exponent) : IsNumber (sign ++ (whole ++ (fraction ++ exponent)))

/-! ## Values -/

/-- What a text spells: a value, or more than a value in its strings. -/
inductive Tree where
  | null
  | bool (value : Bool)
  | number (literal : String)
  | text (content : List Letter)
  | list (items : List Tree)
  | object (members : List (String × Tree))

mutual

/-- The value as texts spell it. -/
def Value.tree : Value → Tree
  | .null => .null
  | .bool value => .bool value
  | .number literal => .number literal
  | .text value => .text (letters value)
  | .list items => .list (treeItems items)
  | .object members => .object (treeMembers members)

def treeItems : List Value → List Tree
  | [] => []
  | item :: items => item.tree :: treeItems items

def treeMembers : List (String × Value) → List (String × Tree)
  | [] => []
  | (name, value) :: members => (name, value.tree) :: treeMembers members

end

theorem treeMembers_eq_map (members : List (String × Value)) :
    treeMembers members = members.map fun member => (member.1, member.2.tree) := by
  induction members with
  | nil => rfl
  | cons member members ih => rw [treeMembers, ih, List.map_cons]

/-- What stands before an item: blanks and, except before the first one, a comma among them. -/
inductive Leads : Bool → List Char → Prop where
  | first {blanks : List Char} (blank : Blank blanks) : Leads true blanks
  | next {blanks more : List Char} (blank : Blank blanks) (blank' : Blank more) :
      Leads false (blanks ++ ',' :: more)

/-- A name in quotes, and the colon after it. -/
inductive SpellsName (name : String) : List Char → Prop where
  | named {text blanks : List Char} (spelled : SpellsString (letters name) text)
      (blank : Blank blanks) : SpellsName name ('"' :: (text ++ (blanks ++ [':'])))

mutual

/-- The text spells the tree, without blanks around it. -/
def Spells : Tree → List Char → Prop
  | .null, text => text = ['n', 'u', 'l', 'l']
  | .bool true, text => text = ['t', 'r', 'u', 'e']
  | .bool false, text => text = ['f', 'a', 'l', 's', 'e']
  | .number literal, text => text = literal.toList ∧ IsNumber text
  | .text content, text => ∃ spelled, text = '"' :: spelled ∧ SpellsString content spelled
  | .list items, text => ∃ inner, text = '[' :: inner ∧ SpellsItems items true inner
  | .object members, text => ∃ inner, text = '{' :: inner ∧ SpellsMembers members true inner

/-- The text spells these items of a list, up to and with its closing bracket. -/
def SpellsItems : List Tree → Bool → List Char → Prop
  | [], _, text => ∃ blanks, Blank blanks ∧ text = blanks ++ [']']
  | item :: items, isFirst, text => ∃ lead body rest, text = lead ++ (body ++ rest) ∧
      Leads isFirst lead ∧ Spells item body ∧ SpellsItems items false rest

/-- The text spells these members of an object, up to and with its closing brace. -/
def SpellsMembers : List (String × Tree) → Bool → List Char → Prop
  | [], _, text => ∃ blanks, Blank blanks ∧ text = blanks ++ ['}']
  | (name, tree) :: members, isFirst, text => ∃ lead named blanks body rest,
      text = lead ++ (named ++ (blanks ++ (body ++ rest))) ∧ Leads isFirst lead ∧
      SpellsName name named ∧ Blank blanks ∧ Spells tree body ∧ SpellsMembers members false rest

end

/-- The text spells the tree, with nothing but blanks around it. -/
def Writes (tree : Tree) (text : List Char) : Prop :=
  ∃ before body after, text = before ++ (body ++ after) ∧ Blank before ∧ Blank after ∧
    Spells tree body

theorem writes_of_spells {tree : Tree} {text : List Char} (spelled : Spells tree text) :
    Writes tree text :=
  ⟨[], text, [], by simp, blank_nil, blank_nil, spelled⟩

/-! ## The ends of texts -/

/-- What the text of a tree may start with. -/
structure Opens (tree : Tree) (c : Char) : Prop where
  visible : isSpace c = false
  noComma : c ≠ ','
  noBracket : c ≠ ']'
  noBrace : c ≠ '}'
  null : c = 'n' → tree = .null

theorem Opens.of_ne {tree : Tree} {c : Char}
    (other : isSpace c = false ∧ c ≠ ',' ∧ c ≠ ']' ∧ c ≠ '}' ∧ c ≠ 'n') : Opens tree c where
  visible := other.1
  noComma := other.2.1
  noBracket := other.2.2.1
  noBrace := other.2.2.2.1
  null same := absurd same other.2.2.2.2

theorem Opens.of_isDigit {tree : Tree} {c : Char} (digit : c.isDigit = true) :
    Opens tree c := by
  have other (d : Char) (noDigit : d.isDigit = false) : c ≠ d := by
    rintro rfl
    rw [noDigit] at digit
    cases digit
  exact .of_ne ⟨by simp [isSpace, other], other _ rfl, other _ rfl, other _ rfl, other _ rfl⟩

theorem IsWhole.head {cs : List Char} (whole : IsWhole cs) :
    ∃ c rest, cs = c :: rest ∧ c.isDigit = true := by
  cases whole with
  | zero => exact ⟨_, _, rfl, rfl⟩
  | digits nonzero digits => exact ⟨_, _, rfl, digits _ List.mem_cons_self⟩

theorem IsNumber.head {cs : List Char} (number : IsNumber cs) :
    ∃ c rest, cs = c :: rest ∧ (c = '-' ∨ c.isDigit = true) := by
  cases number with
  | parts isSign isWhole =>
      rcases isSign with rfl | rfl
      · obtain ⟨c, rest, rfl, digit⟩ := isWhole.head
        exact ⟨_, _, rfl, .inr digit⟩
      · exact ⟨_, _, rfl, .inl rfl⟩

theorem Spells.opens {tree : Tree} {text : List Char} (spelled : Spells tree text) :
    ∃ c rest, text = c :: rest ∧ Opens tree c := by
  cases tree with
  | null =>
      cases spelled
      exact ⟨_, _, rfl, rfl, by decide, by decide, by decide, fun _ => rfl⟩
  | bool value =>
      cases value <;> cases spelled
      · exact ⟨_, _, rfl, .of_ne (by decide)⟩
      · exact ⟨_, _, rfl, .of_ne (by decide)⟩
  | number literal =>
      obtain ⟨_, number⟩ := spelled
      obtain ⟨c, rest, rfl, rfl | digit⟩ := number.head
      · exact ⟨_, _, rfl, .of_ne (by decide)⟩
      · exact ⟨_, _, rfl, .of_isDigit digit⟩
  | text value =>
      obtain ⟨_, rfl, _⟩ := spelled
      exact ⟨_, _, rfl, .of_ne (by decide)⟩
  | list items =>
      obtain ⟨_, rfl, _⟩ := spelled
      exact ⟨_, _, rfl, .of_ne (by decide)⟩
  | object members =>
      obtain ⟨_, rfl, _⟩ := spelled
      exact ⟨_, _, rfl, .of_ne (by decide)⟩

/-- No blank is left before a value. -/
theorem Spells.skipSpace {tree : Tree} {text : List Char} (spelled : Spells tree text)
    {blanks : List Char} (blank : Blank blanks) (rest : List Char) :
    skipSpace (blanks ++ (text ++ rest)) = text ++ rest := by
  obtain ⟨c, more, rfl, opens⟩ := spelled.opens
  rw [skipSpace_append blank, List.cons_append, skipSpace_cons opens.visible]

theorem Leads.follows {lead : List Char} (leads : Leads false lead) (rest : List Char) :
    Follows (lead ++ rest) := by
  cases leads with
  | next blank blank' =>
      rw [List.append_assoc]
      exact follows_append blank (follows_cons (.inr (.inl rfl)))

theorem SpellsItems.follows {items : List Tree} {text : List Char}
    (spelled : SpellsItems items false text) (rest : List Char) : Follows (text ++ rest) := by
  cases items with
  | nil =>
      obtain ⟨blanks, blank, rfl⟩ := spelled
      rw [List.append_assoc]
      exact follows_append blank (follows_cons (by decide))
  | cons item items =>
      obtain ⟨lead, body, tail, rfl, leads, _, _⟩ := spelled
      rw [List.append_assoc]
      exact leads.follows _

theorem SpellsMembers.follows {members : List (String × Tree)} {text : List Char}
    (spelled : SpellsMembers members false text) (rest : List Char) : Follows (text ++ rest) := by
  cases members with
  | nil =>
      obtain ⟨blanks, blank, rfl⟩ := spelled
      rw [List.append_assoc]
      exact follows_append blank (follows_cons (by decide))
  | cons member members =>
      obtain ⟨lead, named, blanks, body, tail, rfl, leads, _⟩ := spelled
      rw [List.append_assoc]
      exact leads.follows _

/-- A text has a character at least for each of the members. -/
theorem SpellsMembers.length_lt {members : List (String × Tree)} {isFirst : Bool}
    {text : List Char} (spelled : SpellsMembers members isFirst text) :
    members.length < text.length := by
  induction members generalizing isFirst text with
  | nil =>
      obtain ⟨blanks, _, rfl⟩ := spelled
      simp
  | cons member members ih =>
      obtain ⟨lead, named, blanks, body, tail, rfl, _, ⟨_, _⟩, _, _, others⟩ := spelled
      have more := ih others
      simp only [List.length_append, List.length_cons] at more ⊢
      omega

theorem SpellsItems.length_lt {items : List Tree} {isFirst : Bool} {text : List Char}
    (spelled : SpellsItems items isFirst text) : items.length < text.length := by
  induction items generalizing isFirst text with
  | nil =>
      obtain ⟨blanks, _, rfl⟩ := spelled
      simp
  | cons item items ih =>
      obtain ⟨lead, body, tail, rfl, _, spelled, others⟩ := spelled
      obtain ⟨c, rest, rfl, _⟩ := spelled.opens
      have more := ih others
      simp only [List.length_append, List.length_cons] at more ⊢
      omega

/-! ## What is written -/

theorem joinWith_cons (separator text : List Char) (texts : List (List Char)) :
    joinWith separator (text :: texts) = text ++ texts.flatMap (separator ++ ·) := by
  induction texts generalizing text with
  | nil => simp [joinWith]
  | cons next texts ih => simp [joinWith, ih]

section Join

variable {mid after : List Char} (blank : Blank mid) (blank' : Blank after)

include blank blank'

theorem spellsItems_flatMap {items : List Tree} {texts : List (List Char)}
    (spelled : List.Forall₂ Spells items texts) :
    SpellsItems items false (texts.flatMap (',' :: mid ++ ·) ++ (after ++ [']'])) := by
  induction spelled with
  | nil => exact ⟨after, blank', rfl⟩
  | @cons item text items texts one _ ih =>
      exact ⟨',' :: mid, text, _, by simp, .next blank_nil blank, one, ih⟩

theorem spellsItems_join {items : List Tree} {texts : List (List Char)}
    (spelled : List.Forall₂ Spells items texts) (some : items ≠ []) :
    SpellsItems items true (mid ++ (joinWith (',' :: mid) texts ++ (after ++ [']']))) := by
  cases spelled with
  | nil => exact absurd rfl some
  | @cons item text items texts one others =>
      rw [joinWith_cons]
      exact ⟨mid, text, _, by simp, .first blank, one, spellsItems_flatMap blank blank' others⟩

/-- A member is spelled as its name, a colon, perhaps blanks, and its value. -/
def SpellsMember (member : String × Tree) (text : List Char) : Prop :=
  ∃ named blanks body, text = named ++ (blanks ++ body) ∧ SpellsName member.1 named ∧
    Blank blanks ∧ Spells member.2 body

theorem spellsMembers_flatMap {members : List (String × Tree)} {texts : List (List Char)}
    (spelled : List.Forall₂ SpellsMember members texts) :
    SpellsMembers members false (texts.flatMap (',' :: mid ++ ·) ++ (after ++ ['}'])) := by
  induction spelled with
  | nil => exact ⟨after, blank', rfl⟩
  | @cons member text members texts one _ ih =>
      obtain ⟨named, blanks, body, rfl, name, blank'', value⟩ := one
      exact ⟨',' :: mid, named, blanks, body, _, by simp, .next blank_nil blank, name, blank'',
        value, ih⟩

theorem spellsMembers_join {members : List (String × Tree)} {texts : List (List Char)}
    (spelled : List.Forall₂ SpellsMember members texts) (some : members ≠ []) :
    SpellsMembers members true (mid ++ (joinWith (',' :: mid) texts ++ (after ++ ['}']))) := by
  cases spelled with
  | nil => exact absurd rfl some
  | @cons member text members texts one others =>
      obtain ⟨named, blanks, body, rfl, name, blank'', value⟩ := one
      rw [joinWith_cons]
      exact ⟨mid, named, blanks, body, _, by simp, .first blank, name, blank'', value,
        spellsMembers_flatMap blank blank' others⟩

end Join

theorem hexDigit?_hexDigit {n : Nat} (bound : n < 16) : hexDigit? (hexDigit n) = some n := by
  decide +revert

/-- How a character is written: by a letter, by its code, or as it is. -/
inductive Escaped (c : Char) : List Char → Prop where
  | short {letter : Char} (names : shortEscape? letter = some c) : Escaped c ['\\', letter]
  | code (control : c.toNat < 0x20) : Escaped c
      ['\\', 'u', '0', '0', hexDigit (c.toNat / 16), hexDigit (c.toNat % 16)]
  | plain (visible : 0x20 ≤ c.toNat) (noQuote : c ≠ '"') (noBackslash : c ≠ '\\') : Escaped c [c]

theorem escaped_escapeChar (c : Char) : Escaped c (escapeChar c) := by
  have short (other letter : Char) (names : shortEscape? letter = some other) (same : c = other) :
      Escaped c ['\\', letter] := .short (same ▸ names)
  unfold escapeChar
  split
  · exact short _ _ rfl ‹_›
  · split
    · exact short _ _ rfl ‹_›
    · split
      · exact short _ _ rfl ‹_›
      · split
        · exact short _ _ rfl ‹_›
        · split
          · exact short _ _ rfl ‹_›
          · split
            · exact short _ _ rfl ‹_›
            · split
              · exact short _ _ rfl ‹_›
              · split
                · exact .code ‹_›
                · exact .plain (by omega) ‹_› ‹_›

theorem spellsString_escape (cs : List Char) :
    SpellsString (cs.map .char) (cs.flatMap escapeChar ++ ['"']) := by
  induction cs with
  | nil => exact .close
  | cons c cs ih =>
      rw [List.flatMap_cons, List.append_assoc]
      have escaped := escaped_escapeChar c
      generalize escapeChar c = written at escaped
      cases escaped with
      | short names => exact .short names ih
      | code control =>
          have high := hexDigit?_hexDigit (n := c.toNat / 16) (by omega)
          have low := hexDigit?_hexDigit (n := c.toNat % 16) (by omega)
          have same : ((0 * 16 + 0) * 16 + c.toNat / 16) * 16 + c.toNat % 16 = c.toNat := by omega
          have hex : HexCode c.toNat
              ['0', '0', hexDigit (c.toNat / 16), hexDigit (c.toNat % 16)] := by
            have word : HexCode (((0 * 16 + 0) * 16 + c.toNat / 16) * 16 + c.toNat % 16) _ :=
              .word (a := '0') (b := '0') rfl rfl high low
            rwa [same] at word
          exact .code hex ih
      | plain visible noQuote noBackslash => exact .plain visible noQuote noBackslash ih

theorem spellsName_quote (name : String) : SpellsName name (quote name ++ [':']) := by
  have named := SpellsName.named (spellsString_escape name.toList) blank_nil
  simpa [quote] using named

mutual

/-- The numbers of the value are numbers. -/
def HasText : Value → Prop
  | .number literal => IsNumber literal.toList
  | .list items => HaveTexts items
  | .object members => MembersHaveTexts members
  | .null => True
  | .bool _ => True
  | .text _ => True

def HaveTexts : List Value → Prop
  | [] => True
  | item :: items => HasText item ∧ HaveTexts items

def MembersHaveTexts : List (String × Value) → Prop
  | [] => True
  | (_, value) :: members => HasText value ∧ MembersHaveTexts members

end

theorem haveTexts_iff {items : List Value} : HaveTexts items ↔ ∀ item ∈ items, HasText item := by
  induction items with
  | nil => simp [HaveTexts]
  | cons item items ih => simp [HaveTexts, ih]

theorem membersHaveTexts_iff {members : List (String × Value)} :
    MembersHaveTexts members ↔ ∀ member ∈ members, HasText member.2 := by
  induction members with
  | nil => simp [MembersHaveTexts]
  | cons member members ih => simp [MembersHaveTexts, ih]

/-- A list on one line, of which each item is. -/
theorem spells_list {items : List Tree} {texts : List (List Char)}
    (spelled : List.Forall₂ Spells items texts) :
    Spells (.list items) ('[' :: joinWith [','] texts ++ [']']) := by
  refine ⟨_, rfl, ?_⟩
  cases items with
  | nil =>
      cases spelled
      exact ⟨[], blank_nil, rfl⟩
  | cons item items => exact spellsItems_join blank_nil blank_nil spelled (List.cons_ne_nil _ _)

theorem spells_object {members : List (String × Tree)} {texts : List (List Char)}
    (spelled : List.Forall₂ SpellsMember members texts) :
    Spells (.object members) ('{' :: joinWith [','] texts ++ ['}']) := by
  refine ⟨_, rfl, ?_⟩
  cases members with
  | nil =>
      cases spelled
      exact ⟨[], blank_nil, rfl⟩
  | cons member members =>
      exact spellsMembers_join blank_nil blank_nil spelled (List.cons_ne_nil _ _)

mutual

/-- The text on one line is a text of the value. -/
theorem spells_compact : ∀ {value : Value}, HasText value → Spells value.tree (compact value)
  | .null, _ => rfl
  | .bool true, _ => rfl
  | .bool false, _ => rfl
  | .number _, number => ⟨rfl, number⟩
  | .text value, _ => ⟨_, rfl, spellsString_escape value.toList⟩
  | .list _, texts => spells_list (spells_compactItems texts)
  | .object _, texts => spells_object (spells_compactMembers texts)

theorem spells_compactItems : ∀ {items : List Value}, HaveTexts items →
    List.Forall₂ Spells (treeItems items) (compactItems items)
  | [], _ => .nil
  | _ :: _, ⟨first, others⟩ => .cons (spells_compact first) (spells_compactItems others)

theorem spells_compactMembers : ∀ {members : List (String × Value)}, MembersHaveTexts members →
    List.Forall₂ SpellsMember (treeMembers members) (compactMembers members)
  | [], _ => .nil
  | (name, value) :: _, ⟨first, others⟩ =>
      .cons ⟨quote name ++ [':'], [], compact value, by simp, spellsName_quote name, blank_nil,
        spells_compact first⟩ (spells_compactMembers others)

end

theorem blank_newLine (depth : Nat) : Blank (newLine depth) := by
  intro c member
  rcases List.mem_cons.mp member with rfl | member
  · rfl
  · rw [List.eq_of_mem_replicate member]
    rfl

theorem spells_bracket_list (depth : Nat) {items : List Tree} {texts : List (List Char)}
    (spelled : List.Forall₂ Spells items texts) :
    Spells (.list items) (bracket '[' ']' depth texts) := by
  cases spelled with
  | nil => exact ⟨_, rfl, [], blank_nil, rfl⟩
  | cons one others =>
      have inner := spellsItems_join (blank_newLine (depth + 1)) (blank_newLine depth)
        (.cons one others) (List.cons_ne_nil _ _)
      exact ⟨_, by simp [bracket], inner⟩

theorem spells_bracket_object (depth : Nat) {members : List (String × Tree)}
    {texts : List (List Char)} (spelled : List.Forall₂ SpellsMember members texts) :
    Spells (.object members) (bracket '{' '}' depth texts) := by
  cases spelled with
  | nil => exact ⟨_, rfl, [], blank_nil, rfl⟩
  | cons one others =>
      have inner := spellsMembers_join (blank_newLine (depth + 1)) (blank_newLine depth)
        (.cons one others) (List.cons_ne_nil _ _)
      exact ⟨_, by simp [bracket], inner⟩

mutual

/-- The indented text is a text of the value. -/
theorem spells_pretty : ∀ (depth : Nat) {value : Value}, HasText value →
    Spells value.tree (pretty depth value)
  | _, .null, _ => rfl
  | _, .bool true, _ => rfl
  | _, .bool false, _ => rfl
  | _, .number _, number => ⟨rfl, number⟩
  | _, .text value, _ => ⟨_, rfl, spellsString_escape value.toList⟩
  | depth, .list _, texts => spells_bracket_list depth (spells_prettyItems (depth + 1) texts)
  | depth, .object _, texts =>
      spells_bracket_object depth (spells_prettyMembers (depth + 1) texts)

theorem spells_prettyItems : ∀ (depth : Nat) {items : List Value}, HaveTexts items →
    List.Forall₂ Spells (treeItems items) (prettyItems depth items)
  | _, [], _ => .nil
  | depth, _ :: _, ⟨first, others⟩ =>
      .cons (spells_pretty depth first) (spells_prettyItems depth others)

theorem spells_prettyMembers : ∀ (depth : Nat) {members : List (String × Value)},
    MembersHaveTexts members →
    List.Forall₂ SpellsMember (treeMembers members) (prettyMembers depth members)
  | _, [], _ => .nil
  | depth, (name, value) :: _, ⟨first, others⟩ =>
      .cons ⟨quote name ++ [':'], [' '], pretty depth value, by simp, spellsName_quote name,
        by simp [Blank, isSpace], spells_pretty depth first⟩ (spells_prettyMembers depth others)

end

end Turnstile.Json
