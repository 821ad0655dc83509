import Turnstile.Host.FileTree
import Turnstile.Shell.Format
import Turnstile.Time

/-!
# Programs of the system

Small programs that read their input to its end and then write all they have to
say at once.
-/

namespace Turnstile.Host

open Text (Bytes)

/-- What a program leaves behind. -/
structure Result where
  out : Bytes := []
  err : Bytes := []
  status : Nat := 0
  tree : FileTree

namespace Result

/-- Adds the result of a next part; the status is the last one that is no success. -/
def append (first : Result) (next : FileTree → Result) : Result :=
  let second := next first.tree
  { out := first.out ++ second.out
    err := first.err ++ second.err
    status := if second.status = 0 then first.status else second.status
    tree := second.tree }

/-- Does something for each argument. -/
def forEach (arguments : List String) (tree : FileTree) (act : FileTree → String → Result) :
    Result :=
  arguments.foldl (fun result argument => result.append fun tree => act tree argument) { tree }

end Result

/-- The text of an error as programs report it. -/
def describeError : OsError → String
  | .notFound => "No such file or directory"
  | .permissionDenied => "Permission denied"
  | .notDirectory => "Not a directory"
  | .isDirectory => "Is a directory"
  | .nameTooLong => "File name too long"
  | .tooManyLinks => "Too many levels of symbolic links"
  | error => error.message

/-- The lines of some bytes, each with its line feed if it has one. -/
def linesOf (bytes : Bytes) : List Bytes :=
  if bytes.isEmpty then []
  else
    let line := bytes.takeWhile (· != 10)
    let next := line.length + 1
    bytes.take next :: linesOf (bytes.drop next)
termination_by bytes.length
decreasing_by
  have := List.length_pos_iff.2 (fun none => by simp_all : bytes ≠ [])
  simp only [List.length_drop]
  omega

/-- A failure that a program reports in one line. -/
def failWith (tree : FileTree) (status : Nat) (text : String) : Result :=
  { err := Text.encode (text ++ "\n"), status, tree }

/-- Options written with one hyphen, and the arguments after them. -/
def options (arguments : List String) : List Char × List String :=
  let isOption := fun (argument : String) =>
    argument.toList.head? == some '-' && 1 < argument.length
  let flags := arguments.takeWhile isOption
  (flags.flatMap fun flag => flag.toList.drop 1, arguments.drop flags.length)

/-! ## Reading files -/

/-- Whether a program reads its input when it is given no file. -/
def readsInput (name : String) (arguments : List String) : Bool :=
  match name with
  | "cat" => (options arguments).2.isEmpty || arguments.contains "-"
  | "wc" => (options arguments).2.isEmpty
  | "sort" => (options arguments).2.isEmpty
  | "head" => arguments.all fun argument => argument.toList.head? == some '-' || argument.isNat
  | "tail" => arguments.all fun argument => argument.toList.head? == some '-' || argument.isNat
  | _ => false

/-- The bytes of a file, or of the input if a hyphen is given. -/
def readFile (name : String) (base : Place) (input : Bytes) (tree : FileTree) (path : String) :
    Except Result Bytes :=
  if path = "-" then .ok input
  else
    match tree.read base path with
    | .ok bytes => .ok bytes
    | .error error => .error (failWith tree 1 (name ++ ": " ++ path ++ ": " ++ describeError error))

def cat (base : Place) (input : Bytes) (tree : FileTree) (arguments : List String) : Result :=
  let files := (options arguments).2
  if files.isEmpty then { out := input, tree }
  else .forEach files tree fun tree path =>
    match readFile "cat" base input tree path with
    | .ok bytes => { out := bytes, tree }
    | .error result => result

/-- The number that `head` and `tail` are given, whether it counts bytes, and the files. -/
def countOf (arguments : List String) : Nat × Bool × List String :=
  match arguments with
  | "-n" :: count :: rest => (count.toNat?.getD 10, false, rest)
  | "-c" :: count :: rest => (count.toNat?.getD 10, true, rest)
  | first :: rest =>
    match first.toList with
    | '-' :: 'n' :: digits => ((String.ofList digits).toNat?.getD 10, false, rest)
    | '-' :: 'c' :: digits => ((String.ofList digits).toNat?.getD 10, true, rest)
    | '-' :: digits => ((String.ofList digits).toNat?.getD 10, false, rest)
    | _ => (10, false, arguments)
  | [] => (10, false, [])

/-- Passes on a part of the input or of the first file. -/
def partOf (name : String) (select : Nat → Bool → Bytes → Bytes) (base : Place) (input : Bytes)
    (tree : FileTree) (arguments : List String) : Result :=
  let (count, bytewise, files) := countOf arguments
  match readFile name base input tree (files.headD "-") with
  | .ok bytes => { out := select count bytewise bytes, tree }
  | .error result => result

def firstPart (count : Nat) (bytewise : Bool) (bytes : Bytes) : Bytes :=
  if bytewise then bytes.take count else ((linesOf bytes).take count).flatten

def lastPart (count : Nat) (bytewise : Bool) (bytes : Bytes) : Bytes :=
  if bytewise then bytes.drop (bytes.length - count)
  else
    let lines := linesOf bytes
    (lines.drop (lines.length - count)).flatten

/-- Counts lines, words or bytes. -/
def wc (base : Place) (input : Bytes) (tree : FileTree) (arguments : List String) : Result :=
  let (flags, files) := options arguments
  match readFile "wc" base input tree (files.headD "-") with
  | .error result => result
  | .ok bytes =>
    let count := if flags.contains 'c' then bytes.length else bytes.count 10
    let name := if files.isEmpty then "" else " " ++ files.headD ""
    { out := Text.encode (toString count ++ name ++ "\n"), tree }

def sortLines (base : Place) (input : Bytes) (tree : FileTree) (arguments : List String) :
    Result :=
  let (flags, files) := options arguments
  match readFile "sort" base input tree (files.headD "-") with
  | .error result => result
  | .ok bytes =>
    let lines := ((linesOf bytes).map fun line => Text.decodeLossy (line.filter (· != 10))).mergeSort
      fun a b => !(b < a)
    let ordered := if flags.contains 'r' then lines.reverse else lines
    { out := ordered.flatMap fun line => Text.encode (line ++ "\n"), tree }

/-! ## Directories -/

/-- The names in a directory, without hidden ones unless they are asked for. -/
def visible (all : Bool) (names : List String) : List String :=
  names.filter fun name => all || name.toList.head? != some '.'

def ls (base : Place) (tree : FileTree) (arguments : List String) : Result :=
  let (flags, paths) := options arguments
  let listing := fun (tree : FileTree) (path : String) =>
    match tree.resolve base path with
    | .error error =>
      failWith tree 2 ("ls: cannot access '" ++ path ++ "': " ++ describeError error)
    | .ok place =>
      let names := if tree.isDirectoryAt place then
        visible (flags.contains 'a' || flags.contains 'A') (tree.list place) else [path]
      ({ out := names.flatMap fun name => Text.encode (name ++ "\n"), tree } : Result)
  .forEach (if paths.isEmpty then ["."] else paths) tree listing

def touch (base : Place) (tree : FileTree) (arguments : List String) : Result :=
  .forEach (options arguments).2 tree fun tree path =>
    match tree.resolve base path with
    | .ok _ => { tree }
    | .error _ =>
      match tree.openWrite base path false with
      | .ok (_, tree) => { tree }
      | .error error => failWith tree 1 ("touch: cannot touch '" ++ path ++ "': " ++ describeError error)

/-- The place of an entry itself: a link at the end of the path is not followed. -/
def entryPlace (base : Place) (tree : FileTree) (path : String) : Except OsError Place :=
  match (Path.names path).getLast? with
  | none => .ok (Path.start base path)
  | some name =>
    match tree.walk FileTree.maxLinks (Path.start base path) (Path.names path).dropLast with
    | .error error => .error error
    | .ok parent =>
      if (tree.entryAt? (parent ++ [name])).isSome then .ok (parent ++ [name]) else .error .notFound

def rm (base : Place) (tree : FileTree) (arguments : List String) : Result :=
  let (flags, paths) := options arguments
  let recursive := flags.contains 'r' || flags.contains 'R'
  .forEach paths tree fun tree path =>
    match entryPlace base tree path with
    | .error error =>
      if flags.contains 'f' then { tree }
      else failWith tree 1 ("rm: cannot remove '" ++ path ++ "': " ++ describeError error)
    | .ok place =>
      if tree.isDirectoryAt place && !recursive then
        failWith tree 1 ("rm: cannot remove '" ++ path ++ "': Is a directory")
      else { tree := tree.erase place }

def mkdir (base : Place) (tree : FileTree) (arguments : List String) : Result :=
  let (flags, paths) := options arguments
  .forEach paths tree fun tree path =>
    if flags.contains 'p' then { tree := (tree.makeParents (Path.start base path) (Path.names path)).2 }
    else
      match tree.resolve base path with
      | .ok _ => failWith tree 1 ("mkdir: cannot create directory '" ++ path ++ "': File exists")
      | .error _ =>
        match tree.target FileTree.maxLinks base path with
        | .ok place => { tree := tree.set place .directory }
        | .error error =>
          failWith tree 1 ("mkdir: cannot create directory '" ++ path ++ "': " ++ describeError error)

/-- Copies or moves a file; a directory as the target receives it under its own name. -/
def transfer (name : String) (remove : Bool) (base : Place) (tree : FileTree)
    (arguments : List String) : Result :=
  match (options arguments).2 with
  | [path, target] =>
    match tree.resolve base path, tree.target FileTree.maxLinks base target with
    | .ok source, .ok goal =>
      let place := if tree.isDirectoryAt goal then goal ++ [source.getLast?.getD ""] else goal
      match tree.entryAt? source with
      | some entry => { tree := (if remove then tree.erase source else tree).set place entry }
      | none => { tree }
    | .error error, _ =>
      failWith tree 1 (name ++ ": cannot stat '" ++ path ++ "': " ++ describeError error)
    | _, .error error =>
      failWith tree 1 (name ++ ": cannot create regular file '" ++ target ++ "': " ++ describeError error)
  | _ => failWith tree 1 (name ++ ": missing file operand")

def chmod (base : Place) (tree : FileTree) (arguments : List String) : Result :=
  match arguments with
  | mode :: paths =>
    let executable := mode.toList.contains 'x' && !mode.toList.contains '-' ||
      mode.toList.any fun c => c == '7' || c == '5' || c == '1'
    .forEach paths tree fun tree path =>
      match tree.resolve base path with
      | .error error =>
        failWith tree 1 ("chmod: cannot access '" ++ path ++ "': " ++ describeError error)
      | .ok place =>
        match tree.entryAt? place with
        | some (.file contents _) => { tree := tree.set place (.file contents executable) }
        | _ => { tree }
  | [] => failWith tree 1 "chmod: missing operand"

/-! ## Other programs -/

def seq (tree : FileTree) (arguments : List String) : Result :=
  let numbers := arguments.filterMap String.toInt?
  let (first, step, last) := match numbers with
    | [last] => ((1 : Int), (1 : Int), last)
    | [first, last] => (first, 1, last)
    | [first, step, last] => (first, step, last)
    | _ => (1, 1, 0)
  let count := if 0 < step then ((last - first) / step + 1).toNat
    else if step < 0 then ((first - last) / (-step) + 1).toNat else 0
  { out := (List.range count).flatMap fun (index : Nat) =>
      Text.encode (toString (first + step * index) ++ "\n"), tree }

/-- The part of a path after its last slash. -/
def baseOf (path : String) : String :=
  ((Path.names path).filter (· != ".")).getLast?.getD "/"

/-- The part of a path before its last slash. -/
def directoryOf (path : String) : String :=
  let names := ((Path.names path).filter (· != ".")).dropLast
  if Path.isAbsolute path then "/" ++ "/".intercalate names
  else if names.isEmpty then "." else "/".intercalate names

/-! ## Conditions -/

/-- Compares two numbers by an operator. -/
def compareNumbers (operator : String) (a b : Int) : Option Bool :=
  match operator with
  | "-eq" => some (a == b)
  | "-ne" => some (a != b)
  | "-lt" => some (decide (a < b))
  | "-le" => some (decide (a ≤ b))
  | "-gt" => some (decide (b < a))
  | "-ge" => some (decide (b ≤ a))
  | _ => none

/-- A condition on one operand. -/
def checkOne (base : Place) (tree : FileTree) (operator operand : String) : Bool :=
  let entry := tree.find base operand
  match operator with
  | "-n" => operand != ""
  | "-z" => operand == ""
  | "-e" => entry.isOk
  | "-r" => entry.isOk
  | "-w" => entry.isOk
  | "-f" => match entry with
    | .ok (.file _ _) => true
    | .ok (.program _) => true
    | _ => false
  | "-d" => match entry with
    | .ok .directory => true
    | _ => false
  | "-x" => match entry with
    | .ok (.file _ executable) => executable
    | .ok _ => true
    | .error _ => false
  | "-s" => match entry with
    | .ok (.file contents _) => !contents.isEmpty
    | .ok .directory => true
    | _ => false
  | "-L" => match entryPlace base tree operand with
    | .ok place => match tree.entryAt? place with
      | some (.link _) => true
      | _ => false
    | .error _ => false
  | _ => false

/-- Whether a condition holds. -/
def condition (base : Place) (tree : FileTree) : List String → Bool
  | [] => false
  | "!" :: rest => !condition base tree rest
  | [operand] => operand != ""
  | [operator, operand] => checkOne base tree operator operand
  | first :: operator :: second :: rest =>
    let holds := match operator with
      | "=" => first == second
      | "==" => first == second
      | "!=" => first != second
      | _ =>
        (compareNumbers operator (Shell.Arithmetic.value first)
          (Shell.Arithmetic.value second)).getD false
    match rest with
    | "-a" :: more => holds && condition base tree more
    | "-o" :: more => holds || condition base tree more
    | _ => holds

/-- The result of a condition. -/
def test (base : Place) (tree : FileTree) (arguments : List String) : Result :=
  { status := if condition base tree arguments then 0 else 1, tree }

/-- What a program of the system does, once its input is read; none if there is no such program. -/
def runProgram? (base : Place) (input : Bytes) (tree : FileTree) (name : String)
    (arguments : List String) : Option Result :=
  match name with
  | "true" => some { tree }
  | "false" => some { status := 1, tree }
  | "echo" => some { out := Shell.echo arguments, tree }
  | "printf" =>
    some (match arguments with
      | format :: rest => { out := Shell.printf format (rest.length + 1) rest, tree }
      | [] => failWith tree 2 "printf: usage: printf format [arg ...]")
  | "test" => some (test base tree arguments)
  | "[" => some (test base tree arguments.dropLast)
  | "pwd" => some { out := Text.encode (Path.ofPlace base ++ "\n"), tree }
  | "cat" => some (cat base input tree arguments)
  | "ls" => some (ls base tree arguments)
  | "touch" => some (touch base tree arguments)
  | "rm" => some (rm base tree arguments)
  | "mkdir" => some (mkdir base tree arguments)
  | "cp" => some (transfer "cp" false base tree arguments)
  | "mv" => some (transfer "mv" true base tree arguments)
  | "chmod" => some (chmod base tree arguments)
  | "wc" => some (wc base input tree arguments)
  | "head" => some (partOf "head" firstPart base input tree arguments)
  | "tail" => some (partOf "tail" lastPart base input tree arguments)
  | "sort" => some (sortLines base input tree arguments)
  | "seq" => some (seq tree arguments)
  | "basename" => some { out := Text.encode (baseOf (arguments.headD "") ++ "\n"), tree }
  | "dirname" => some { out := Text.encode (directoryOf (arguments.headD "") ++ "\n"), tree }
  | _ => none

/-- The span that `sleep` is asked for, in microseconds, if it is one. -/
def sleepSpan? (text : String) : Option Time :=
  let cs := text.toList
  let whole := cs.takeWhile Char.isDigit
  let rest := cs.drop whole.length
  let (part, unit) := match rest with
    | '.' :: after => (after.takeWhile Char.isDigit, after.dropWhile Char.isDigit)
    | _ => ([], rest)
  let micros := Shell.Arithmetic.ofDigits 10 ((part ++ List.replicate 6 '0').take 6)
  let span := (Shell.Arithmetic.ofDigits 10 whole).toNat * 1000000 + micros.toNat
  if whole.isEmpty && part.isEmpty then none
  else
    match unit with
    | [] => some span
    | ['s'] => some span
    | ['m'] => some (span * 60)
    | ['h'] => some (span * 3600)
    | ['d'] => some (span * 86400)
    | _ => none

end Turnstile.Host
