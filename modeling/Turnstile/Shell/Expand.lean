import Turnstile.Shell.Arithmetic
import Turnstile.Shell.Pattern
import Turnstile.Shell.Script

/-!
# Expansion of words

What words stand for: parameters and arithmetic are replaced by their values,
unquoted values are split at blanks, and patterns become the names they match.
-/

namespace Turnstile.Shell

/-- What a shell remembers between commands. -/
structure Env where
  /-- The name that the shell goes by in its messages. -/
  name : String := "sh"
  arguments : List String := []
  bindings : List (String × String) := []
  /-- The status of the command before. -/
  status : Nat := 0
  /-- The process number of the shell itself. -/
  shellId : Nat := 0
  /-- The process number of the last command in the background. -/
  lastJob : Option Nat := none
  functions : List (String × Command) := []

namespace Env

def valueOf? (env : Env) (name : String) : Option String :=
  env.bindings.lookup name

def assign (env : Env) (name value : String) : Env :=
  { env with bindings := (name, value) :: env.bindings.filter fun item => item.1 != name }

def unset (env : Env) (name : String) : Env :=
  { env with bindings := env.bindings.filter fun item => item.1 != name }

/-- The value of a parameter that is not a list, if it is set. -/
def get? (env : Env) (name : String) : Option String :=
  match name with
  | "#" => some (toString env.arguments.length)
  | "?" => some (toString env.status)
  | "$" => some (toString env.shellId)
  | "!" => env.lastJob.map toString
  | "-" => some ""
  | "0" => some env.name
  | "*" => if env.arguments.isEmpty then none else some (" ".intercalate env.arguments)
  | "@" => if env.arguments.isEmpty then none else some (" ".intercalate env.arguments)
  | _ =>
    match name.toNat? with
    | some index => env.arguments[index - 1]?
    | none => env.valueOf? name

/-- The text that a parameter expansion stands for. -/
def expandParam (env : Env) (name : String) (use : ParamUse) : String :=
  let value := env.get? name
  let present := fun (colon : Bool) => value.any fun text => !(colon && text.isEmpty)
  match use with
  | .plain => value.getD ""
  | .length => toString (value.getD "").length
  | .fallback colon text => if present colon then value.getD "" else String.ofList text
  | .instead colon text => if present colon then String.ofList text else ""

end Env

/-! ## Fields -/

/-- Fields while a word is expanded: those that are complete, and the one being built, if any. -/
structure Fields where
  complete : List (List PatternChar) := []
  current : Option (List PatternChar) := none

namespace Fields

/-- Adds characters to the field being built, which they start if there is none. -/
def add (chars : List Char) (literal : Bool) (fields : Fields) : Fields :=
  { fields with current := some (fields.current.getD [] ++ chars.map fun c => (c, literal)) }

/-- Completes the field being built. -/
def split (fields : Fields) : Fields :=
  match fields.current with
  | none => fields
  | some chars => { complete := fields.complete ++ [chars] }

/-- Adds an unquoted value, which is split at blanks. -/
def addSplit (chars : List Char) (fields : Fields) : Fields :=
  chars.foldl (fun fields c =>
    if c == ' ' || c == '\t' || c == '\n' then fields.split else fields.add [c] false) fields

/-- Adds a value. -/
def addValue (quoted : Bool) (value : String) (fields : Fields) : Fields :=
  if quoted then fields.add value.toList true else fields.addSplit value.toList

/-- Adds values that are fields of their own. -/
def addEach (quoted : Bool) : List String → Fields → Fields
  | [], fields => fields
  | [last], fields => fields.addValue quoted last
  | value :: rest, fields => addEach quoted rest (fields.addValue quoted value).split

def all (fields : Fields) : List (List PatternChar) :=
  fields.split.complete

end Fields

/-- What an arithmetic expression stands for; a malformed one stands for nought. -/
def expandArithmetic (env : Env) (source : List Char) : String :=
  toString ((Arithmetic.evaluate (fun name => (env.get? name).getD "") source).getD 0)

/-- Adds what a part stands for. -/
def expandPart (env : Env) (fields : Fields) : Part → Fields
  | .text chars quoted => fields.add chars quoted
  | .param "@" .plain quoted => fields.addEach quoted env.arguments
  | .param "*" .plain false => fields.addEach false env.arguments
  | .param name use quoted => fields.addValue quoted (env.expandParam name use)
  | .arithmetic source quoted => fields.addValue quoted (expandArithmetic env source)
  | .result chars quoted => fields.addValue quoted (String.ofList chars)
  | .command _ _ => fields

/-- The characters of the fields that a word stands for. -/
def expandFields (env : Env) (word : Word) : List (List PatternChar) :=
  (word.foldl (expandPart env) {}).all

def plainText (chars : List PatternChar) : String :=
  String.ofList (chars.map Prod.fst)

/-- The names in a directory that a pattern matches, or the pattern itself if there are none. -/
def expandNames (names : List String) (chars : List PatternChar) : List String :=
  if isActive chars && !(chars.any fun item => item.1 == '/') then
    let found := names.filter fun name =>
      patternMatches chars name && (name.toList.head? != some '.' || chars.head?.any (·.1 == '.'))
    if found.isEmpty then [plainText chars] else found
  else [plainText chars]

/-- The texts that a word stands for, among files of the given names. -/
def expandWord (env : Env) (names : List String) (word : Word) : List String :=
  (expandFields env word).flatMap (expandNames names)

/-- The one text that a word stands for where it is not split. -/
def expandWhole (env : Env) (word : Word) : List PatternChar :=
  (expandFields env
    (word.map fun
      | .param name use _ => .param (if name = "@" then "*" else name) use true
      | .arithmetic source _ => .arithmetic source true
      | .result chars _ => .result chars true
      | part => part)).flatten

def expandText (env : Env) (word : Word) : String :=
  plainText (expandWhole env word)

/-! ## Commands inside words -/

/-- The first command of a word that has not been run. -/
def sourceIn? (word : Word) : Option (List Char) :=
  word.findSome? fun
    | .command source _ => some source
    | _ => none

/-- The word with the output of its first command put in place. -/
def fillWord (output : List Char) : Word → Word
  | [] => []
  | .command _ quoted :: rest => .result output quoted :: rest
  | part :: rest => part :: fillWord output rest

/-- The words with the output of their first command put in place. -/
def fillWords (output : List Char) : List Word → List Word
  | [] => []
  | word :: rest =>
    if (sourceIn? word).isSome then fillWord output word :: rest
    else word :: fillWords output rest

def Redirect.target : Redirect → Word
  | .file _ _ target => target
  | .duplicate _ target => target

def Redirect.withTarget (target : Word) : Redirect → Redirect
  | .file fd mode _ => .file fd mode target
  | .duplicate fd _ => .duplicate fd target

/-- The words that have to be expanded before a command can start. -/
def Command.operands : Command → List Word
  | .simple _ assignments words redirects =>
    assignments.map Prod.snd ++ words ++ redirects.map Redirect.target
  | .each _ (some words) _ => words
  | .choose subject _ => [subject]
  | .redirected _ redirects => redirects.map Redirect.target
  | _ => []

/-- The command with the words that are expanded before it starts replaced. -/
def Command.withOperands (command : Command) (words : List Word) : Command :=
  match command with
  | .simple line assignments old redirects =>
    let later := words.drop assignments.length
    .simple line ((assignments.zip words).map fun item => (item.1.1, item.2))
      (later.take old.length)
      ((redirects.zip (later.drop old.length)).map fun item => item.1.withTarget item.2)
  | .each name (some _) body => .each name (some words) body
  | .choose _ clauses => .choose (words.headD []) clauses
  | .redirected body redirects =>
    .redirected body ((redirects.zip words).map fun item => item.1.withTarget item.2)
  | other => other

/-- The first command inside a command's words that has not been run. -/
def Command.source? (command : Command) : Option (List Char) :=
  command.operands.findSome? sourceIn?

/-- The command with the output of the first command inside its words put in place. -/
def Command.fill (output : List Char) (command : Command) : Command :=
  command.withOperands (fillWords output command.operands)

end Turnstile.Shell
