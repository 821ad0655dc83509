import Turnstile.Json.Skip
import Turnstile.Proofs.Json.Grammar

/-!
# Scanning texts of JSON values

Readers take exactly the text of what they read from the front of a longer text, and
leave the rest.  A value that nobody asks for is taken in the same way, whatever it is.
-/

namespace Turnstile.Json

/-! ## Strings -/

theorem readHex_append {code : Nat} {word : List Char} (hex : HexCode code word)
    (rest : List Char) : readHex (word ++ rest) = .ok (code, rest) := by
  cases hex with
  | word one two three four => simp [readHex, one, two, three, four]

/-- No character is half of a pair of surrogates. -/
theorem not_surrogate (c : Char) :
    isLeadSurrogate c.toNat = false ∧ isTrailSurrogate c.toNat = false := by
  have valid : c.toNat < 0xD800 ∨ 0xDFFF < c.toNat ∧ c.toNat < 0x110000 := c.valid
  simp only [isLeadSurrogate, isTrailSurrogate, Bool.and_eq_false_iff, decide_eq_false_iff_not]
  omega

theorem readEscape_short {c letter : Char} (names : shortEscape? letter = some c)
    (rest : List Char) : readEscape (letter :: rest) = .ok (c, rest) := by
  unfold readEscape
  split
  · contradiction
  · rename_i same
    cases same
    cases names
  · rename_i same
    cases same
    rw [names]

theorem skipEscape_short {c letter : Char} (names : shortEscape? letter = some c)
    (rest : List Char) : skipEscape (letter :: rest) = .ok rest := by
  unfold skipEscape
  split
  · contradiction
  · rename_i same
    cases same
    cases names
  · rename_i same
    cases same
    simp [names]

theorem readEscape_code {c : Char} {word : List Char} (hex : HexCode c.toNat word)
    (rest : List Char) : readEscape ('u' :: (word ++ rest)) = .ok (c, rest) := by
  obtain ⟨lead, trail⟩ := not_surrogate c
  simp [readEscape, readHex_append hex, lead, trail, Char.ofNat_toNat]

theorem readEscape_pair {c : Char} {first second : List Char} {lead trail : Nat}
    (hex : HexCode lead first) (hex' : HexCode trail second)
    (leads : isLeadSurrogate lead = true) (trails : isTrailSurrogate trail = true)
    (same : c.toNat = 0x10000 + (lead - 0xD800) * 0x400 + (trail - 0xDC00))
    (rest : List Char) :
    readEscape ('u' :: (first ++ '\\' :: 'u' :: (second ++ rest))) = .ok (c, rest) := by
  have other : isTrailSurrogate lead = false := by
    simp only [isLeadSurrogate, isTrailSurrogate, Bool.and_eq_true, decide_eq_true_eq] at leads ⊢
    simp only [Bool.and_eq_false_iff, decide_eq_false_iff_not]
    omega
  simp [readEscape, readHex_append hex, readHex_append hex', leads, trails, other, readTrail,
    ← same, Char.ofNat_toNat]

theorem readString_escape {cs after rest text : List Char} {c : Char}
    (escape : readEscape cs = .ok (c, after)) (read : readString after = .ok (text, rest)) :
    readString ('\\' :: cs) = .ok (c :: text, rest) := by
  rw [readString]
  simp only [Char.reduceEq, if_false, if_true]
  split
  · rename_i failed
    rw [escape] at failed
    cases failed
  · rename_i found
    rw [escape] at found
    cases found
    rw [read]

theorem skipString_escape {cs after rest : List Char}
    (escape : skipEscape cs = .ok after) (skipped : skipString after = .ok rest) :
    skipString ('\\' :: cs) = .ok rest := by
  rw [skipString]
  simp only [Char.reduceEq, if_false, if_true]
  split
  · rename_i failed
    rw [escape] at failed
    cases failed
  · rename_i found
    rw [escape] at found
    cases found
    exact skipped

theorem readString_append {cs text : List Char} (spelled : SpellsString (cs.map .char) text)
    (rest : List Char) : readString (text ++ rest) = .ok (cs, rest) := by
  generalize same : cs.map Letter.char = content at spelled
  induction spelled generalizing cs with
  | close =>
      obtain rfl := List.map_eq_nil_iff.mp same
      simp [readString]
  | plain visible noQuote noBackslash _ ih =>
      obtain ⟨c, cs, rfl, ⟨⟩, others⟩ := List.map_eq_cons_iff.mp same
      rw [List.cons_append, readString]
      simp [noQuote, noBackslash, Nat.not_lt.mpr visible, ih others]
  | short names _ ih =>
      obtain ⟨c, cs, rfl, ⟨⟩, others⟩ := List.map_eq_cons_iff.mp same
      exact readString_escape (readEscape_short names _) (ih others)
  | code hex _ ih =>
      obtain ⟨c, cs, rfl, ⟨⟩, others⟩ := List.map_eq_cons_iff.mp same
      rw [List.cons_append, List.cons_append, List.append_assoc]
      exact readString_escape (readEscape_code hex _) (ih others)
  | pair hex hex' leads trails code _ ih =>
      obtain ⟨c, cs, rfl, ⟨⟩, others⟩ := List.map_eq_cons_iff.mp same
      simp only [List.cons_append, List.append_assoc]
      exact readString_escape (readEscape_pair hex hex' leads trails code _) (ih others)
  | half =>
      obtain ⟨c, cs, rfl, other, _⟩ := List.map_eq_cons_iff.mp same
      cases other

theorem skipString_append {content : List Letter} {text : List Char}
    (spelled : SpellsString content text) (rest : List Char) :
    skipString (text ++ rest) = .ok rest := by
  have code {number : Nat} {word : List Char} (hex : HexCode number word) (more : List Char) :
      skipEscape ('u' :: (word ++ more)) = .ok more := by
    simp [skipEscape, readHex_append hex, Except.map]
  induction spelled with
  | close => simp [skipString]
  | plain visible noQuote noBackslash _ ih =>
      rw [List.cons_append, skipString]
      simp [noQuote, noBackslash, Nat.not_lt.mpr visible, ih]
  | short names _ ih => exact skipString_escape (skipEscape_short names _) ih
  | code hex _ ih =>
      rw [List.cons_append, List.cons_append, List.append_assoc]
      exact skipString_escape (code hex _) ih
  | pair hex hex' _ _ _ _ ih =>
      -- Each half of the pair is skipped by itself.
      simp only [List.cons_append, List.append_assoc]
      exact skipString_escape (code hex _) (skipString_escape (code hex' _) ih)
  | half hex _ _ ih =>
      rw [List.cons_append, List.cons_append, List.append_assoc]
      exact skipString_escape (code hex _) ih

/-! ## Numbers -/

/-- Digits that have been read to their end. -/
def Stops (rest : List Char) : Prop :=
  ∀ c, rest.head? = some c → c.isDigit = false

theorem stops_cons {c : Char} {rest : List Char} (other : c.isDigit = false) :
    Stops (c :: rest) := by
  rintro _ ⟨⟩
  exact other

theorem Follows.stops {rest : List Char} (follows : Follows rest) : Stops rest := by
  intro c head
  rcases follows c head with space | rfl | rfl | rfl
  · simp only [isSpace, Bool.or_eq_true, beq_iff_eq] at space
    rcases space with ((rfl | rfl) | rfl) | rfl <;> rfl
  all_goals rfl

/-- Neither a fraction nor an exponent may follow a value. -/
theorem Follows.apart {rest : List Char} (follows : Follows rest) {c : Char}
    (head : rest.head? = some c) : c ≠ '.' ∧ c ≠ 'e' ∧ c ≠ 'E' := by
  rcases follows c head with space | rfl | rfl | rfl
  · simp only [isSpace, Bool.or_eq_true, beq_iff_eq] at space
    rcases space with ((rfl | rfl) | rfl) | rfl <;> decide
  all_goals decide

theorem IsExponent.stops {exponent rest : List Char} (isExponent : IsExponent exponent)
    (follows : Follows rest) : Stops (exponent ++ rest) := by
  cases isExponent with
  | none => exact follows.stops
  | some isLetter _ _ => rcases isLetter with rfl | rfl <;> exact stops_cons rfl

theorem IsFraction.stops {fraction exponent rest : List Char} (isFraction : IsFraction fraction)
    (isExponent : IsExponent exponent) (follows : Follows rest) :
    Stops (fraction ++ (exponent ++ rest)) := by
  cases isFraction with
  | none => exact isExponent.stops follows
  | some => exact stops_cons rfl

theorem spanDigits_append {digits rest : List Char} (all : ∀ c ∈ digits, c.isDigit = true)
    (stops : Stops rest) : spanDigits (digits ++ rest) = (digits, rest) := by
  have taken : rest.takeWhile Char.isDigit = [] := by
    cases rest with
    | nil => rfl
    | cons c rest => simp [stops c rfl]
  have dropped : rest.dropWhile Char.isDigit = rest := by
    cases rest with
    | nil => rfl
    | cons c rest => simp [stops c rfl]
  rw [spanDigits, List.takeWhile_append_of_pos all, List.dropWhile_append_of_pos all, taken,
    dropped, List.append_nil]

theorem skipDigits_append {digits rest : List Char} (isDigits : IsDigits digits)
    (stops : Stops rest) : skipDigits (digits ++ rest) = .ok rest := by
  have dropped := congrArg Prod.snd (spanDigits_append isDigits.2 stops)
  cases digits with
  | nil => exact absurd rfl isDigits.1
  | cons c digits =>
      have first := isDigits.2 c List.mem_cons_self
      simpa [skipDigits, spanDigits, first] using dropped

theorem skipExponent_append {sign digits rest : List Char}
    (isSign : sign = [] ∨ sign = ['+'] ∨ sign = ['-']) (isDigits : IsDigits digits)
    (stops : Stops rest) : skipExponent (sign ++ (digits ++ rest)) = .ok rest := by
  have skipped := skipDigits_append isDigits stops
  rcases isSign with rfl | rfl | rfl
  · rw [List.nil_append]
    unfold skipExponent
    split
    · rename_i same
      rw [same, skipDigits] at skipped
      simp at skipped
    · rename_i same
      rw [same, skipDigits] at skipped
      simp at skipped
    · exact skipped
  · exact skipped
  · exact skipped

theorem skipTail_follows {rest : List Char} (follows : Follows rest) :
    skipTail rest = .ok rest := by
  unfold skipTail
  split
  · exact absurd rfl (follows.apart rfl).1
  · exact absurd rfl (follows.apart rfl).2.1
  · exact absurd rfl (follows.apart rfl).2.2
  · rfl

theorem skipTail_exponent {exponent rest : List Char} (isExponent : IsExponent exponent)
    (follows : Follows rest) : skipTail (exponent ++ rest) = .ok rest := by
  cases isExponent with
  | none => exact skipTail_follows follows
  | some isLetter isSign isDigits =>
      have skipped := skipExponent_append isSign isDigits follows.stops
      rw [← List.append_assoc] at skipped
      rcases isLetter with rfl | rfl <;> exact skipped

theorem skipTail_append {fraction exponent rest : List Char} (isFraction : IsFraction fraction)
    (isExponent : IsExponent exponent) (follows : Follows rest) :
    skipTail (fraction ++ (exponent ++ rest)) = .ok rest := by
  have tail := skipTail_exponent isExponent follows
  cases isFraction with
  | none => exact tail
  | some isDigits =>
      -- After the digits only an exponent is looked for, which `skipTail` does as well.
      rw [List.cons_append, skipTail, skipDigits_append isDigits (isExponent.stops follows)]
      cases isExponent with
      | none =>
          rw [List.nil_append]
          split
          · contradiction
          · cases ‹Except.ok rest = _›
            exact absurd rfl (follows.apart rfl).2.1
          · cases ‹Except.ok rest = _›
            exact absurd rfl (follows.apart rfl).2.2
          · exact ‹Except.ok rest = _›.symm
      | some isLetter => rcases isLetter with rfl | rfl <;> exact tail

theorem skipNumber_append {whole fraction exponent rest : List Char} (isWhole : IsWhole whole)
    (isFraction : IsFraction fraction) (isExponent : IsExponent exponent)
    (follows : Follows rest) :
    skipNumber (whole ++ (fraction ++ (exponent ++ rest))) = .ok rest := by
  have stops := isFraction.stops isExponent follows
  have tail := skipTail_append isFraction isExponent follows
  generalize fraction ++ (exponent ++ rest) = more at stops tail
  cases isWhole with
  | zero =>
      have apart : more.head?.any Char.isDigit = false := by
        cases more with
        | nil => rfl
        | cons c more => exact stops c rfl
      rw [List.singleton_append, skipNumber, apart]
      exact tail
  | digits nonzero digits =>
      unfold skipNumber
      split
      · rename_i same
        exact absurd (List.cons.inj same).1 nonzero
      · rw [skipDigits_append ⟨List.cons_ne_nil _ _, digits⟩ stops]
        exact tail

/-- An integer is read as it is written. -/
theorem readLiteral_append (negative : Bool) {whole rest : List Char} (isWhole : IsWhole whole)
    (follows : Follows rest) :
    readLiteral negative (whole ++ rest) = .ok (⟨negative, whole, [], 0, true⟩, rest) := by
  have tail : readTail negative whole rest = .ok (⟨negative, whole, [], 0, true⟩, rest) := by
    unfold readTail
    split
    · exact absurd rfl (follows.apart rfl).1
    · exact absurd rfl (follows.apart rfl).2.1
    · exact absurd rfl (follows.apart rfl).2.2
    · rfl
  cases isWhole with
  | zero =>
      have apart : rest.head?.any Char.isDigit = false := by
        cases rest with
        | nil => rfl
        | cons c rest => exact follows.stops c rfl
      rw [List.singleton_append, readLiteral, apart]
      exact tail
  | digits nonzero digits =>
      unfold readLiteral
      split
      · contradiction
      · rename_i same
        exact absurd (List.cons.inj same).1 nonzero
      · rw [spanDigits_append digits follows.stops]
        exact tail

/-! ## Values that are skipped -/

theorem skipHead_digit {c : Char} (digit : c.isDigit = true) (rest : List Char) :
    skipHead (c :: rest) = (skipNumber (c :: rest)).map fun rest => (none, rest) := by
  unfold skipHead
  split
  · contradiction
  iterate 7
    · rename_i same
      cases same
      exact absurd digit (by decide)
  · simp [digit]

theorem skipHead_number {text rest : List Char} (number : IsNumber text)
    (follows : Follows rest) : skipHead (text ++ rest) = .ok (none, rest) := by
  cases number with
  | @parts sign whole fraction exponent isSign isWhole isFraction isExponent =>
      have skipped : skipNumber (whole ++ (fraction ++ exponent) ++ rest) = .ok rest := by
        simpa using skipNumber_append isWhole isFraction isExponent follows
      rcases isSign with rfl | rfl
      · obtain ⟨c, more, rfl, digit⟩ := isWhole.head
        change skipHead (c :: (more ++ (fraction ++ exponent) ++ rest)) = _
        rw [skipHead_digit digit]
        exact congrArg (Except.map _) skipped
      · exact congrArg (Except.map _) skipped

theorem skipHead_string {content : List Letter} {text : List Char}
    (spelled : SpellsString content text) (rest : List Char) :
    skipHead ('"' :: (text ++ rest)) = .ok (none, rest) :=
  congrArg (Except.map _) (skipString_append spelled rest)

theorem skipName_append {name : String} {named : List Char} (spelled : SpellsName name named)
    (rest : List Char) : skipName (named ++ rest) = .ok rest := by
  cases spelled with
  | @named text blanks spelled blank =>
      simp only [List.cons_append, List.append_assoc, skipName, if_true,
        skipString_append spelled, skipSpace_append blank, List.nil_append,
        skipSpace_cons (c := ':') rfl]

/-! ### The steps of skipping -/

variable {frame : Frame} {frames : List Frame}

theorem skipFrom_whole {cs rest : List Char} (head : skipHead (skipSpace cs) = .ok (none, rest)) :
    skipFrom .value frames cs = skipFrom .nextItem frames rest := by
  conv_lhs => rw [skipFrom]
  split <;> simp_all

theorem skipFrom_open {cs rest : List Char}
    (head : skipHead (skipSpace cs) = .ok (some frame, rest)) :
    skipFrom .value frames cs = skipFrom .firstItem (frame :: frames) rest := by
  conv_lhs => rw [skipFrom]
  split <;> simp_all

theorem skipFrom_name {cs rest : List Char} (name : skipName (skipSpace cs) = .ok rest) :
    skipFrom .member frames cs = skipFrom .value frames rest := by
  conv_lhs => rw [skipFrom]
  split <;> simp_all

/-- What a bracket is asked for next. -/
def awaitingItem : Bool → Awaiting
  | true => .firstItem
  | false => .nextItem

theorem skipFrom_close (isFirst : Bool) {cs rest : List Char}
    (spaced : skipSpace cs = frame.closer :: rest) :
    skipFrom (awaitingItem isFirst) (frame :: frames) cs = skipFrom .nextItem frames rest := by
  cases isFirst
  · conv_lhs => rw [awaitingItem, skipFrom]
    split <;> simp_all
  · conv_lhs => rw [awaitingItem, skipFrom]
    split <;> simp_all

theorem skipFrom_first {c : Char} {cs rest : List Char} (spaced : skipSpace cs = c :: rest)
    (noCloser : c ≠ frame.closer) :
    skipFrom .firstItem (frame :: frames) cs = skipFrom frame.item (frame :: frames) cs := by
  conv_lhs => rw [skipFrom]
  split <;> simp_all

theorem skipFrom_comma {cs rest : List Char} (spaced : skipSpace cs = ',' :: rest) :
    skipFrom .nextItem (frame :: frames) cs = skipFrom frame.item (frame :: frames) rest := by
  have noCloser : ',' ≠ frame.closer := by cases frame <;> decide
  conv_lhs => rw [skipFrom]
  split <;> simp_all

/-- The comma before an item is skipped, and blanks may be left. -/
theorem skipFrom_lead (frame : Frame) (frames : List Frame) {isFirst : Bool} {lead : List Char}
    (leads : Leads isFirst lead) {c : Char} (visible : isSpace c = false)
    (noCloser : c ≠ frame.closer) (rest : List Char) :
    ∃ blanks, Blank blanks ∧ skipFrom (awaitingItem isFirst) (frame :: frames) (lead ++ c :: rest) =
      skipFrom frame.item (frame :: frames) (blanks ++ c :: rest) := by
  cases leads with
  | first blank =>
      have spaced := skipSpace_append blank (c :: rest)
      rw [skipSpace_cons visible] at spaced
      exact ⟨lead, blank, skipFrom_first spaced noCloser⟩
  | @next blanks more blank blank' =>
      have spaced := skipSpace_append blank (',' :: (more ++ c :: rest))
      rw [skipSpace_cons rfl] at spaced
      refine ⟨more, blank', ?_⟩
      rw [List.append_assoc, List.cons_append]
      exact skipFrom_comma spaced

theorem SpellsName.head {name : String} {named : List Char} (spelled : SpellsName name named) :
    ∃ more, named = '"' :: more := by
  cases spelled with
  | named => exact ⟨_, rfl⟩

mutual

/-- Whatever value is skipped, the place after it is reached. -/
theorem skipFrom_append : ∀ {tree : Tree} {text : List Char}, Spells tree text →
    ∀ {blanks rest : List Char}, Blank blanks → Follows rest → ∀ frames : List Frame,
    skipFrom .value frames (blanks ++ (text ++ rest)) = skipFrom .nextItem frames rest
  | .null, _, spelled, _, rest, blank, _, _ => by
      refine skipFrom_whole ?_
      rw [spelled.skipSpace blank, spelled]
      rfl
  | .bool true, _, spelled, _, rest, blank, _, _ => by
      refine skipFrom_whole ?_
      rw [spelled.skipSpace blank, spelled]
      rfl
  | .bool false, _, spelled, _, rest, blank, _, _ => by
      refine skipFrom_whole ?_
      rw [spelled.skipSpace blank, spelled]
      rfl
  | .number _, _, spelled, _, _, blank, follows, _ => by
      refine skipFrom_whole ?_
      rw [spelled.skipSpace blank]
      exact skipHead_number spelled.2 follows
  | .text _, _, spelled, _, rest, blank, _, _ => by
      refine skipFrom_whole ?_
      rw [spelled.skipSpace blank]
      obtain ⟨_, rfl, string⟩ := spelled
      exact skipHead_string string rest
  | .list _, _, spelled, _, rest, blank, _, frames => by
      have spaced := spelled.skipSpace blank rest
      obtain ⟨inner, rfl, items⟩ := spelled
      rw [← skipFrom_items items rest frames]
      exact skipFrom_open (by rw [spaced]; rfl)
  | .object _, _, spelled, _, rest, blank, _, frames => by
      have spaced := spelled.skipSpace blank rest
      obtain ⟨inner, rfl, members⟩ := spelled
      rw [← skipFrom_members members rest frames]
      exact skipFrom_open (by rw [spaced]; rfl)

theorem skipFrom_items : ∀ {items : List Tree} {isFirst : Bool} {text : List Char},
    SpellsItems items isFirst text → ∀ (rest : List Char) (frames : List Frame),
    skipFrom (awaitingItem isFirst) (.list :: frames) (text ++ rest) =
      skipFrom .nextItem frames rest
  | [], _, _, ⟨blanks, blank, same⟩, rest, frames => by
      refine skipFrom_close _ ?_
      rw [same, List.append_assoc, skipSpace_append blank]
      rfl
  | item :: items, _, _, ⟨lead, body, tail, same, leads, spelled, others⟩, rest, frames => by
      obtain ⟨c, more, start, opens⟩ := spelled.opens
      obtain ⟨blanks, blank, step⟩ := skipFrom_lead .list frames leads
        opens.visible opens.noBracket (more ++ (tail ++ rest))
      have value := skipFrom_append spelled blank (others.follows rest) (.list :: frames)
      rw [same, List.append_assoc, List.append_assoc, start, List.cons_append, step]
      rw [start, List.cons_append] at value
      exact value.trans (skipFrom_items others rest frames)

theorem skipFrom_members : ∀ {members : List (String × Tree)} {isFirst : Bool}
    {text : List Char}, SpellsMembers members isFirst text →
    ∀ (rest : List Char) (frames : List Frame),
    skipFrom (awaitingItem isFirst) (.object :: frames) (text ++ rest) =
      skipFrom .nextItem frames rest
  | [], _, _, ⟨blanks, blank, same⟩, rest, frames => by
      refine skipFrom_close _ ?_
      rw [same, List.append_assoc, skipSpace_append blank]
      rfl
  | (name, tree) :: members, _, _,
      ⟨lead, named, between, body, tail, same, leads, spelledName, blank, spelled, others⟩,
      rest, frames => by
      obtain ⟨more, start⟩ := spelledName.head
      obtain ⟨blanks, blank', step⟩ := skipFrom_lead .object frames leads
        (c := '"') rfl (by decide) (more ++ (between ++ (body ++ (tail ++ rest))))
      have skipped : skipName (skipSpace (blanks ++
          '"' :: (more ++ (between ++ (body ++ (tail ++ rest)))))) =
          .ok (between ++ (body ++ (tail ++ rest))) := by
        rw [skipSpace_append blank', skipSpace_cons rfl, ← List.cons_append, ← start]
        exact skipName_append spelledName _
      have value := skipFrom_append spelled blank (others.follows rest) (.object :: frames)
      rw [same, start]
      simp only [List.append_assoc, List.cons_append]
      rw [step, Frame.item, skipFrom_name skipped]
      exact value.trans (skipFrom_members others rest frames)

end

/-- A value that nobody asks for is skipped, whatever it is. -/
theorem skipValue_append {tree : Tree} {text : List Char} (spelled : Spells tree text)
    {blanks rest : List Char} (blank : Blank blanks) (follows : Follows rest) :
    skipValue (blanks ++ (text ++ rest)) = .ok rest := by
  rw [skipValue, skipFrom_append spelled blank follows, skipFrom]

end Turnstile.Json
