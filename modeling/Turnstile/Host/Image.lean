import Turnstile.Host.FileTree

/-!
# Program images

Which file a command starts, and what is run for it: a program of the system, or
the interpreter that a script names on its first line.
-/

namespace Turnstile

/-- What is run for a command. -/
structure Image where
  /-- The file that was found for the command. -/
  place : Place
  /-- The program of the system that is run. -/
  program : String
  /-- The arguments that stand before those of the command. -/
  arguments : List String := []
  deriving DecidableEq, Repr

namespace Image

/-- The directories in which bare names are looked up. -/
def searchPath : List String :=
  ["/usr/local/bin", "/usr/bin", "/bin"]

/-- The interpreter that a script names on its first line, with an optional argument. -/
def interpreter? (contents : Text.Bytes) : Option (String × List String) :=
  match contents with
  | 35 :: 33 :: rest =>
    let line := (Text.decodeLossy (rest.takeWhile (· != 10))).toList
    let blank := fun (c : Char) => c == ' ' || c == '\t'
    let trimmed := line.dropWhile blank
    let name := trimmed.takeWhile fun c => !blank c
    let argument := ((trimmed.drop name.length).dropWhile blank)
    some (String.ofList name, if argument.isEmpty then [] else [String.ofList argument])
  | _ => none

/-- The image of the file at a place that a path leads to. -/
def ofEntry (tree : FileTree) (base : Place) (path : String) (place : Place) :
    Except OsError Image :=
  match tree.entryAt? place with
  | some (.program name) => .ok ⟨place, name, []⟩
  | some (.file contents true) =>
    match interpreter? contents with
    | none => .error .notExecutable
    | some (interpreter, arguments) =>
      match tree.find base interpreter with
      | .ok (.program name) => .ok ⟨place, name, arguments ++ [path]⟩
      | .ok _ => .error .permissionDenied
      | .error error => .error error
  | none => .error .notFound
  | some _ => .error .permissionDenied

/-- The image that a path leads to from the directory of the process to be. -/
def ofPath (tree : FileTree) (base : Place) (path : String) : Except OsError Image :=
  match tree.resolve base path with
  | .error error => .error error
  | .ok place => ofEntry tree base path place

/-- The image of a bare name. -/
def ofName (tree : FileTree) (base : Place) (name : String) : Except OsError Image :=
  if name = "" then .error .notFound
  else
    let found := searchPath.filterMap fun directory =>
      match ofPath tree base (directory ++ "/" ++ name) with
      | .ok image => some image
      | .error _ => none
    match found with
    | image :: _ => .ok image
    | [] => .error .notFound

/-- The image of a command: a token with a slash is a path, any other is a bare name. -/
def ofCommand (tree : FileTree) (base : Place) (token : String) : Except OsError Image :=
  if token.toList.contains '/' then ofPath tree base token else ofName tree base token

/-- The directory that a process starts in. -/
def directory (tree : FileTree) (base : Place) : Option String → Except OsError Place
  | none => .ok base
  | some path =>
    if path.toList.contains '\x00' then .error .nulInArgument
    else
      match tree.resolve base path with
      | .error error => .error error
      | .ok place => if tree.isDirectoryAt place then .ok place else .error .notDirectory

/-- The image that a command starts in a directory of its own, and that directory. -/
def start (tree : FileTree) (base : Place) (workingDir : Option String) (token : String) :
    Except OsError (Place × Image) :=
  match directory tree base workingDir with
  | .error error => .error error
  | .ok place =>
    match ofCommand tree place token with
    | .error error => .error error
    | .ok image => .ok (place, image)

end Image

namespace FileTree

/-- The programs of the system. -/
def programs : List String :=
  ["sh", "true", "false", "sleep", "cat", "ls", "echo", "printf", "test", "[", "pwd", "touch",
    "rm", "mkdir", "cp", "mv", "chmod", "wc", "head", "tail", "seq", "sort", "basename", "dirname"]

/-- A tree with the system's programs and devices. -/
def system : FileTree where
  entries :=
    [(["dev"], .directory), (["dev", "null"], .device), (["tmp"], .directory),
      (["usr"], .directory), (["usr", "bin"], .directory), (["usr", "local"], .directory),
      (["usr", "local", "bin"], .directory), (["bin"], .link "usr/bin")] ++
      programs.map fun name => (["usr", "bin", name], .program name)

end FileTree

end Turnstile
