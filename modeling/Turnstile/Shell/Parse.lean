import Turnstile.Shell.Script

/-!
# Reading shell scripts

Scripts are read by recursive descent.  Every reader returns what it read and
the rest of the text, or the reason why it cannot; a number that bounds the depth
of the descent runs out only after the text does.
-/

namespace Turnstile.Shell

/-- Reads something from the front of a text. -/
abbrev Reader (α : Type) := List Char → Except String (α × List Char)

/-! ## Words -/

/-- The mark around a command whose output takes its place. -/
def backquote : Char := Char.ofNat 0x60

def isBlank (c : Char) : Bool :=
  c == ' ' || c == '\t'

/-- The characters that end a word. -/
def isMeta (c : Char) : Bool :=
  isBlank c || c == '\n' || c == ';' || c == '&' || c == '|' || c == '<' || c == '>' ||
    c == '(' || c == ')'

def isNameStart (c : Char) : Bool :=
  c.isAlpha || c == '_'

def isNameChar (c : Char) : Bool :=
  c.isAlphanum || c == '_'

def unterminated : String := "Unterminated quoted string"

/-- The text before the next `stop`, and the rest after it. -/
def readTo (stop : Char) (cs : List Char) : Except String (List Char × List Char) :=
  match cs.dropWhile (· != stop) with
  | [] => .error unterminated
  | _ :: rest => .ok (cs.takeWhile (· != stop), rest)

/-- The text before the bracket that closes one already open, and the rest after it. -/
def readNested (opener closer : Char) (depth : Nat) (inside : List Char) :
    List Char → Except String (List Char × List Char)
  | [] => .error ("end of file unexpected (expecting \"" ++ String.singleton closer ++ "\")")
  | '\\' :: c :: rest => readNested opener closer depth (c :: '\\' :: inside) rest
  | c :: rest =>
    if c = closer then
      match depth with
      | 0 => .ok (inside.reverse, rest)
      | depth + 1 => readNested opener closer depth (c :: inside) rest
    else if c = opener then readNested opener closer (depth + 1) (c :: inside) rest
    else readNested opener closer depth (c :: inside) rest

/-- A parameter expansion written in braces. -/
def bracedParam (inside : List Char) (quoted : Bool) : Except String Part :=
  match inside with
  | '#' :: c :: name => .ok (.param (String.ofList (c :: name)) .length quoted)
  | _ =>
    let named := inside.takeWhile isNameChar
    let name := if named.isEmpty then inside.take 1 else named
    let param := fun use => .ok (.param (String.ofList name) use quoted)
    match inside.drop name.length with
    | [] => param .plain
    | ':' :: '-' :: text => param (.fallback true text)
    | '-' :: text => param (.fallback false text)
    | ':' :: '+' :: text => param (.instead true text)
    | '+' :: text => param (.instead false text)
    | _ => .error "Bad substitution"

/-- The parameters that are named by one character which starts no name. -/
def isSpecial (c : Char) : Bool :=
  c.isDigit || "@*#?$!-".toList.contains c

/-- What a dollar sign starts; the sign itself has been read. -/
def readDollar (quoted : Bool) (cs : List Char) : Except String (Part × List Char) :=
  match cs with
  | '(' :: '(' :: rest =>
    match readNested '(' ')' 1 [] rest with
    | .error reason => .error reason
    | .ok (inside, rest) => .ok (.arithmetic inside.dropLast quoted, rest)
  | '(' :: rest =>
    match readNested '(' ')' 0 [] rest with
    | .error reason => .error reason
    | .ok (inside, rest) => .ok (.command inside quoted, rest)
  | '{' :: rest =>
    match readNested '{' '}' 0 [] rest with
    | .error _ => .error "Missing '\x7d'"
    | .ok (inside, rest) =>
      match bracedParam inside quoted with
      | .error reason => .error reason
      | .ok part => .ok (part, rest)
  | c :: rest =>
    if isNameStart c then
      .ok (.param (String.ofList (cs.takeWhile isNameChar)) .plain quoted, cs.dropWhile isNameChar)
    else if isSpecial c then .ok (.param (String.singleton c) .plain quoted, rest)
    else .ok (.text ['$'] quoted, cs)
  | [] => .ok (.text ['$'] quoted, [])

/-- Parts read so far, the last one first, with one more. -/
def addPart (part : Part) (parts : List Part) : List Part :=
  match part, parts with
  | .text more false, .text chars false :: rest => .text (chars ++ more) false :: rest
  | .text more true, .text chars true :: rest => .text (chars ++ more) true :: rest
  | _, _ => part :: parts

/-- Reads the inside of double quotes. -/
def readDouble : Nat → List Part → List Char → Except String (List Part × List Char)
  | 0, _, _ => .error unterminated
  | _, _, [] => .error unterminated
  | fuel + 1, parts, c :: rest =>
    match c, rest with
    | '"', _ => .ok (parts, rest)
    | '\\', e :: after =>
      if e = '\n' then readDouble fuel parts after
      else if e = '$' || e = '"' || e = '\\' || e = backquote then
        readDouble fuel (addPart (.text [e] true) parts) after
      else readDouble fuel (addPart (.text ['\\', e] true) parts) after
    | '$', _ =>
      match readDollar true rest with
      | .error reason => .error reason
      | .ok (part, rest) => readDouble fuel (addPart part parts) rest
    | _, _ =>
      if c = backquote then
        match readTo backquote rest with
        | .error reason => .error reason
        | .ok (inside, rest) => readDouble fuel (.command inside true :: parts) rest
      else readDouble fuel (addPart (.text [c] true) parts) rest

/-- Reads a word; no parts if the text does not start with one. -/
def readParts : Nat → List Part → List Char → Except String (List Part × List Char)
  | 0, parts, cs => .ok (parts, cs)
  | _, parts, [] => .ok (parts, [])
  | fuel + 1, parts, c :: rest =>
    if isMeta c then .ok (parts, c :: rest)
    else
      match c, rest with
      | '\\', e :: after =>
        if e = '\n' then readParts fuel parts after
        else readParts fuel (addPart (.text [e] true) parts) after
      | '\'', _ =>
        match readTo '\'' rest with
        | .error reason => .error reason
        | .ok (inside, rest) => readParts fuel (addPart (.text inside true) parts) rest
      | '"', _ =>
        match readDouble (rest.length + 1) parts rest with
        | .error reason => .error reason
        | .ok (more, after) =>
          let quoted := if more.length = parts.length then addPart (.text [] true) more else more
          readParts fuel quoted after
      | '$', _ =>
        match readDollar false rest with
        | .error reason => .error reason
        | .ok (part, rest) => readParts fuel (addPart part parts) rest
      | _, _ =>
        if c = backquote then
          match readTo backquote rest with
          | .error reason => .error reason
          | .ok (inside, rest) => readParts fuel (.command inside false :: parts) rest
        else readParts fuel (addPart (.text [c] false) parts) rest

/-- Reads a word if the text starts with one. -/
def readWord? (cs : List Char) : Except String (Option Word × List Char) :=
  match readParts (cs.length + 1) [] cs with
  | .error reason => .error reason
  | .ok ([], rest) => .ok (none, rest)
  | .ok (parts, rest) => .ok (some parts.reverse, rest)

/-! ## Blanks and reserved words -/

/-- The text without blanks, joined lines and a comment at its front. -/
def skipBlanks : List Char → List Char
  | [] => []
  | '\\' :: '\n' :: rest => skipBlanks rest
  | c :: rest =>
    if isBlank c then skipBlanks rest
    else if c = '#' then (c :: rest).dropWhile (· != '\n')
    else c :: rest

/-- The text without blanks and empty lines at its front. -/
def skipLines : Nat → List Char → List Char
  | 0, cs => cs
  | fuel + 1, cs =>
    match skipBlanks cs with
    | '\n' :: rest => skipLines fuel rest
    | rest => rest

/-- The characters up to the end of a word without quotes or expansions. -/
def leading (cs : List Char) : List Char :=
  cs.takeWhile fun c => !(isMeta c || c == '\'' || c == '"' || c == '\\' || c == '$' || c == backquote)

/-- The text after a reserved word, if it starts with that word. -/
def after? (word : String) (cs : List Char) : Option (List Char) :=
  let chars := word.toList
  if leading cs = chars then
    match cs.drop chars.length with
    | [] => some []
    | c :: rest => if isMeta c then some (c :: rest) else none
  else none

/-- The words that end a list of commands. -/
def closers : List String :=
  ["then", "else", "elif", "fi", "do", "done", "esac", "\x7d"]

/-- Whether a list of commands ends here. -/
def isListEnd (cs : List Char) : Bool :=
  match cs with
  | [] => true
  | ')' :: _ => true
  | ';' :: ';' :: _ => true
  | _ => closers.any fun word => (after? word cs).isSome

/-- What stands at the front of a text, for a complaint about it. -/
def describe (cs : List Char) : String :=
  match cs with
  | [] => "end of file unexpected"
  | '\n' :: _ => "newline unexpected"
  | ';' :: ';' :: _ => "\";;\" unexpected"
  | '&' :: '&' :: _ => "\"&&\" unexpected"
  | '|' :: '|' :: _ => "\"||\" unexpected"
  | c :: _ =>
    if isMeta c then "\"" ++ String.singleton c ++ "\" unexpected"
    else if closers.contains (String.ofList (leading cs)) then
      "\"" ++ String.ofList (leading cs) ++ "\" unexpected"
    else "word unexpected"

/-- Reads a reserved word that has to stand here. -/
def expectWord (word : String) (cs : List Char) : Except String (List Char) :=
  match after? word cs with
  | some rest => .ok rest
  | none => .error (describe cs ++ " (expecting \"" ++ word ++ "\")")

/-! ## Commands -/

/-- Reads a redirection if the text starts with one. -/
def readRedirect? (cs : List Char) : Except String (Option (Redirect × List Char)) :=
  let digits := cs.takeWhile Char.isDigit
  let fd := fun (absent : Nat) =>
    if digits.isEmpty then absent
    else digits.foldl (fun n d => n * 10 + (d.toNat - '0'.toNat)) 0
  let target := fun (make : Word → Redirect) (rest : List Char) =>
    match readWord? (skipBlanks rest) with
    | .error reason => .error reason
    | .ok (none, rest) => .error (describe rest)
    | .ok (some word, rest) => .ok (some (make word, rest))
  match cs.drop digits.length with
  | '>' :: '>' :: rest => target (.file (fd 1) .append) rest
  | '>' :: '&' :: rest => target (.duplicate (fd 1)) rest
  | '>' :: '|' :: rest => target (.file (fd 1) .write) rest
  | '>' :: rest => target (.file (fd 1) .write) rest
  | '<' :: '&' :: rest => target (.duplicate (fd 0)) rest
  | '<' :: '<' :: _ => .error "here-document unexpected"
  | '<' :: rest => target (.file (fd 0) .read) rest
  | _ => .ok none

/-- Reads the redirections after a compound command. -/
def readRedirects : Nat → List Char → Except String (List Redirect × List Char)
  | 0, cs => .ok ([], cs)
  | fuel + 1, cs =>
    match readRedirect? (skipBlanks cs) with
    | .error reason => .error reason
    | .ok none => .ok ([], cs)
    | .ok (some (redirect, rest)) =>
      match readRedirects fuel rest with
      | .error reason => .error reason
      | .ok (redirects, rest) => .ok (redirect :: redirects, rest)

/-- A word that assigns to a variable. -/
def assignment? : Word → Option (String × Word)
  | .text chars false :: parts =>
    let name := chars.takeWhile isNameChar
    match name, chars.drop name.length with
    | c :: _, '=' :: value =>
      if isNameStart c then
        some (String.ofList name, if value.isEmpty then parts else .text value false :: parts)
      else none
    | _, _ => none
  | _ => none

/-- Reads the words, assignments and redirections of a simple command. -/
def readSimple (line : Nat) : Nat → List (String × Word) → List Word → List Redirect → Reader Command
  | 0, _, _, _ => fun cs => .error (describe cs)
  | fuel + 1, assignments, words, redirects => fun cs =>
    match readRedirect? (skipBlanks cs) with
    | .error reason => .error reason
    | .ok (some (redirect, rest)) =>
      readSimple line fuel assignments words (redirects ++ [redirect]) rest
    | .ok none =>
      match readWord? (skipBlanks cs) with
      | .error reason => .error reason
      | .ok (none, rest) =>
        if assignments.isEmpty && words.isEmpty && redirects.isEmpty then .error (describe rest)
        else .ok (.simple line assignments words redirects, rest)
      | .ok (some word, rest) =>
        match words.isEmpty, assignment? word with
        | true, some item => readSimple line fuel (assignments ++ [item]) words redirects rest
        | _, _ => readSimple line fuel assignments (words ++ [word]) redirects rest

/-- Reads the words after `in` up to the end of the line. -/
def readWords : Nat → List Char → Except String (List Word × List Char)
  | 0, cs => .ok ([], cs)
  | fuel + 1, cs =>
    match readWord? (skipBlanks cs) with
    | .error reason => .error reason
    | .ok (none, rest) => .ok ([], rest)
    | .ok (some word, rest) =>
      match readWords fuel rest with
      | .error reason => .error reason
      | .ok (words, rest) => .ok (word :: words, rest)

/-- Reads the patterns of a clause up to the bracket that ends them. -/
def readPatterns : Nat → List Char → Except String (List Word × List Char)
  | 0, cs => .error (describe cs)
  | fuel + 1, cs =>
    match readWord? (skipBlanks cs) with
    | .error reason => .error reason
    | .ok (none, rest) => .error (describe rest)
    | .ok (some word, rest) =>
      match skipBlanks rest with
      | '|' :: rest =>
        match readPatterns fuel rest with
        | .error reason => .error reason
        | .ok (words, rest) => .ok (word :: words, rest)
      | ')' :: rest => .ok ([word], rest)
      | rest => .error (describe rest)

/-- The name of a function whose definition starts here, and the text of its body. -/
def functionHead? (cs : List Char) : Option (String × List Char) :=
  let name := cs.takeWhile isNameChar
  match name, skipBlanks (cs.drop name.length) with
  | c :: _, '(' :: rest =>
    match skipBlanks rest with
    | ')' :: rest => if isNameStart c then some (String.ofList name, rest) else none
    | _ => none
  | _, _ => none

/-- Puts the redirections after a compound command to it. -/
def withRedirects (body : Command) (cs : List Char) : Except String (Command × List Char) :=
  match readRedirects cs.length cs with
  | .error reason => .error reason
  | .ok ([], rest) => .ok (body, rest)
  | .ok (redirects, rest) => .ok (.redirected body redirects, rest)

mutual

/-- Reads commands up to a word or bracket that ends a list. -/
def readList (total : Nat) : Nat → Reader Command
  | 0 => fun cs => .error (describe cs)
  | fuel + 1 => fun cs =>
    let cs := skipLines cs.length cs
    if isListEnd cs then .ok (.nothing, cs)
    else
      match readAndOr total fuel cs with
      | .error reason => .error reason
      | .ok (first, rest) =>
        let more := fun first rest =>
          match readList total fuel rest with
          | .error reason => .error reason
          | .ok (.nothing, rest) => .ok (first, rest)
          | .ok (others, rest) => .ok (.sequence first others, rest)
        match skipBlanks rest with
        | ';' :: ';' :: after => .ok (first, ';' :: ';' :: after)
        | ';' :: after => more first after
        | '\n' :: after => more first after
        | '&' :: after => more (.background first) after
        | rest => .ok (first, rest)

/-- Reads pipelines joined by `&&` and `||`. -/
def readAndOr (total : Nat) : Nat → Reader Command
  | 0 => fun cs => .error (describe cs)
  | fuel + 1 => fun cs =>
    match readPipeline total fuel cs with
    | .error reason => .error reason
    | .ok (first, rest) => readAndOrTail total fuel first rest

def readAndOrTail (total : Nat) : Nat → Command → Reader Command
  | 0, first => fun cs => .ok (first, cs)
  | fuel + 1, first => fun cs =>
    match skipBlanks cs with
    | '&' :: '&' :: rest =>
      match readPipeline total fuel (skipLines rest.length rest) with
      | .error reason => .error reason
      | .ok (second, rest) => readAndOrTail total fuel (.both first second) rest
    | '|' :: '|' :: rest =>
      match readPipeline total fuel (skipLines rest.length rest) with
      | .error reason => .error reason
      | .ok (second, rest) => readAndOrTail total fuel (.either first second) rest
    | rest => .ok (first, rest)

/-- Reads commands joined by `|`. -/
def readPipeline (total : Nat) : Nat → Reader Command
  | 0 => fun cs => .error (describe cs)
  | fuel + 1 => fun cs =>
    let cs := skipBlanks cs
    match after? "!" cs with
    | some rest =>
      match readPipeline total fuel rest with
      | .error reason => .error reason
      | .ok (body, rest) => .ok (.invert body, rest)
    | none =>
      match readStages total fuel cs with
      | .error reason => .error reason
      | .ok ([stage], rest) => .ok (stage, rest)
      | .ok (stages, rest) => .ok (.pipeline stages, rest)

def readStages (total : Nat) : Nat → List Char → Except String (List Command × List Char)
  | 0 => fun cs => .error (describe cs)
  | fuel + 1 => fun cs =>
    match readCommand total fuel cs with
    | .error reason => .error reason
    | .ok (first, rest) =>
      match skipBlanks rest with
      | '|' :: '|' :: _ => .ok ([first], rest)
      | '|' :: after =>
        match readStages total fuel (skipLines after.length after) with
        | .error reason => .error reason
        | .ok (others, rest) => .ok (first :: others, rest)
      | _ => .ok ([first], rest)

/-- Reads one command. -/
def readCommand (total : Nat) : Nat → Reader Command
  | 0 => fun cs => .error (describe cs)
  | fuel + 1 => fun cs =>
    match skipBlanks cs with
    | '(' :: rest =>
      match readList total fuel rest with
      | .error reason => .error reason
      | .ok (body, ')' :: rest) => withRedirects (.subshell body) rest
      | .ok (_, rest) => .error (describe rest ++ " (expecting \")\")")
    | cs =>
      match after? "if" cs with
      | some rest => readBranch total fuel rest
      | none =>
      match after? "while" cs with
      | some rest => readLoop total fuel false rest
      | none =>
      match after? "until" cs with
      | some rest => readLoop total fuel true rest
      | none =>
      match after? "for" cs with
      | some rest => readEach total fuel rest
      | none =>
      match after? "case" cs with
      | some rest => readChoose total fuel rest
      | none =>
      match after? "\x7b" cs with
      | some rest =>
        match readList total fuel rest with
        | .error reason => .error reason
        | .ok (body, rest) =>
          match expectWord "\x7d" rest with
          | .error reason => .error reason
          | .ok rest => withRedirects body rest
      | none =>
      if closers.any fun word => (after? word cs).isSome then .error (describe cs)
      else
        match functionHead? cs with
        | some (name, rest) =>
          match readCommand total fuel (skipLines rest.length rest) with
          | .error reason => .error reason
          | .ok (body, rest) => .ok (.define name body, rest)
        | none =>
          let line := total - cs.count '\n'
          readSimple line (cs.length + 1) [] [] [] cs

/-- Reads what follows `if` or `elif`. -/
def readBranch (total : Nat) : Nat → Reader Command
  | 0 => fun cs => .error (describe cs)
  | fuel + 1 => fun cs =>
    match readList total fuel cs with
    | .error reason => .error reason
    | .ok (condition, rest) =>
    match expectWord "then" rest with
    | .error reason => .error reason
    | .ok rest =>
    match readList total fuel rest with
    | .error reason => .error reason
    | .ok (yes, rest) =>
      match after? "elif" rest with
      | some rest =>
        match readBranch total fuel rest with
        | .error reason => .error reason
        | .ok (no, rest) => .ok (.branch condition yes no, rest)
      | none =>
        match after? "else" rest with
        | some rest =>
          match readList total fuel rest with
          | .error reason => .error reason
          | .ok (no, rest) =>
            match expectWord "fi" rest with
            | .error reason => .error reason
            | .ok rest => withRedirects (.branch condition yes no) rest
        | none =>
          match expectWord "fi" rest with
          | .error reason => .error reason
          | .ok rest => withRedirects (.branch condition yes .nothing) rest

/-- Reads what follows `while` or `until`. -/
def readLoop (total : Nat) : Nat → Bool → Reader Command
  | 0, _ => fun cs => .error (describe cs)
  | fuel + 1, negated => fun cs =>
    match readList total fuel cs with
    | .error reason => .error reason
    | .ok (condition, rest) =>
      match readBody total fuel rest with
      | .error reason => .error reason
      | .ok (body, rest) => withRedirects (.loop negated condition body) rest

/-- Reads the body of a loop. -/
def readBody (total : Nat) : Nat → Reader Command
  | 0 => fun cs => .error (describe cs)
  | fuel + 1 => fun cs =>
    match expectWord "do" cs with
    | .error reason => .error reason
    | .ok rest =>
      match readList total fuel rest with
      | .error reason => .error reason
      | .ok (body, rest) =>
        match expectWord "done" rest with
        | .error reason => .error reason
        | .ok rest => .ok (body, rest)

/-- Reads what follows `for`. -/
def readEach (total : Nat) : Nat → Reader Command
  | 0 => fun cs => .error (describe cs)
  | fuel + 1 => fun cs =>
    let cs := skipBlanks cs
    let name := String.ofList (cs.takeWhile isNameChar)
    let head := skipLines cs.length (cs.dropWhile isNameChar)
    let words : Except String (Option (List Word) × List Char) :=
      match after? "in" head with
      | some rest =>
        match readWords rest.length rest with
        | .error reason => .error reason
        | .ok (words, rest) => .ok (some words, rest)
      | none => .ok (none, head)
    if name = "" then .error "Bad for loop variable"
    else
      match words with
      | .error reason => .error reason
      | .ok (words, rest) =>
        let rest := match skipBlanks rest with
          | ';' :: rest => rest
          | rest => rest
        match readBody total fuel (skipLines rest.length rest) with
        | .error reason => .error reason
        | .ok (body, rest) => withRedirects (.each name words body) rest

/-- Reads what follows `case`. -/
def readChoose (total : Nat) : Nat → Reader Command
  | 0 => fun cs => .error (describe cs)
  | fuel + 1 => fun cs =>
    match readWord? (skipBlanks cs) with
    | .error reason => .error reason
    | .ok (none, rest) => .error (describe rest)
    | .ok (some subject, rest) =>
      match expectWord "in" (skipLines rest.length rest) with
      | .error reason => .error reason
      | .ok rest =>
        match readClauses total fuel rest with
        | .error reason => .error reason
        | .ok (clauses, rest) => withRedirects (.choose subject clauses) rest

def readClauses (total : Nat) :
    Nat → List Char → Except String (List (List Word × Command) × List Char)
  | 0 => fun cs => .error (describe cs)
  | fuel + 1 => fun cs =>
    let cs := skipLines cs.length cs
    match after? "esac" cs with
    | some rest => .ok ([], rest)
    | none =>
      let cs := match cs with
        | '(' :: rest => rest
        | other => other
      match readPatterns cs.length cs with
      | .error reason => .error reason
      | .ok (patterns, rest) =>
        match readList total fuel rest with
        | .error reason => .error reason
        | .ok (body, rest) =>
          match rest with
          | ';' :: ';' :: rest =>
            match readClauses total fuel rest with
            | .error reason => .error reason
            | .ok (clauses, rest) => .ok ((patterns, body) :: clauses, rest)
          | rest =>
            match expectWord "esac" rest with
            | .error reason => .error reason
            | .ok rest => .ok ([(patterns, body)], rest)

end

/-- Reads a script one line of commands after the other; what cannot be read ends it. -/
def readScript (total : Nat) : Nat → List Char → Command
  | 0, _ => .nothing
  | fuel + 1, cs =>
    match skipLines cs.length cs with
    | [] => .nothing
    | cs =>
      let line := total - cs.count '\n'
      match readAndOr total (4 * cs.length + 16) cs with
      | .error reason => .malformed line reason
      | .ok (first, rest) =>
        let more := fun first rest =>
          match readScript total fuel rest with
          | .nothing => first
          | others => .sequence first others
        match skipBlanks rest with
        | [] => first
        | ';' :: ';' :: _ => .malformed line (describe rest)
        | ';' :: after => more first after
        | '\n' :: after => more first after
        | '&' :: after => more (.background first) after
        | other => .malformed line (describe other)

/-- The command that a script stands for. -/
def parse (source : List Char) : Command :=
  readScript (source.count '\n' + 1) (source.length + 1) source

end Turnstile.Shell
