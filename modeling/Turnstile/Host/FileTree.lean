import Turnstile.Command.Check
import Turnstile.Host.Error
import Turnstile.Host.Path

/-!
# File trees

Files, directories, links and devices by their place, and how a path is resolved
among them: names are taken one by one, and a link continues with its target, a
limited number of times.
-/

namespace Turnstile

/-- What stands at a place of a file tree. -/
inductive Entry where
  | file (contents : Text.Bytes) (executable : Bool)
  /-- A program that belongs to the system. -/
  | program (name : String)
  | directory
  /-- A symbolic link. -/
  | link (target : String)
  /-- A device that swallows what is written to it and is empty to readers. -/
  | device
  deriving DecidableEq, Repr

/-- Entries by place.  The root is a directory and has no entry. -/
structure FileTree where
  entries : List (Place × Entry) := []
  deriving DecidableEq, Repr

namespace FileTree

/-- The entry at a place, links not followed. -/
def entryAt? (tree : FileTree) (place : Place) : Option Entry :=
  if place.isEmpty then some .directory else tree.entries.lookup place

def isDirectoryAt (tree : FileTree) (place : Place) : Bool :=
  tree.entryAt? place == some .directory

/-- The tree with the entry at a place set. -/
def set (tree : FileTree) (place : Place) (entry : Entry) : FileTree :=
  if tree.entries.any (fun item => item.1 == place) then
    ⟨tree.entries.map fun item => if item.1 == place then (place, entry) else item⟩
  else ⟨tree.entries ++ [(place, entry)]⟩

/-- The tree without the entry at a place and without what lies below it. -/
def erase (tree : FileTree) (place : Place) : FileTree :=
  ⟨tree.entries.filter fun item => !place.isPrefixOf item.1⟩

/-- How many links a path may lead through. -/
def maxLinks : Nat := 40

/-- Follows the names in `todo` from a place, through at most `links` links. -/
def walk (tree : FileTree) (links : Nat) (here : Place) (todo : List String) :
    Except OsError Place :=
  match todo with
  | [] => .ok here
  | name :: rest =>
    if !tree.isDirectoryAt here then .error .notDirectory
    else if name = "." then walk tree links here rest
    else if name = ".." then walk tree links here.dropLast rest
    else if Path.maxName < name.utf8ByteSize then .error .nameTooLong
    else
      match tree.entryAt? (here ++ [name]) with
      | none => .error .notFound
      | some (.link target) =>
        match links with
        | 0 => .error .tooManyLinks
        | links + 1 => walk tree links (Path.start here target) (Path.names target ++ rest)
      | some _ => walk tree links (here ++ [name]) rest
termination_by (links, todo.length)

/-- The place that a path leads to from `base`, links followed. -/
def resolve (tree : FileTree) (base : Place) (path : String) : Except OsError Place :=
  if path.toList.contains '\x00' then .error .nulInPath
  else if path = "" then .error .notFound
  else if Path.isTooLong path then .error .nameTooLong
  else walk tree maxLinks (Path.start base path) (Path.names path)

/-- The entry that a path leads to from `base`, links followed. -/
def find (tree : FileTree) (base : Place) (path : String) : Except OsError Entry :=
  match tree.resolve base path with
  | .error error => .error error
  | .ok place =>
    match tree.entryAt? place with
    | none => .error .notFound
    | some entry => .ok entry

/-- What a path points at, for the check of a command line. -/
def probe (tree : FileTree) (base : Place) (path : String) : PathKind :=
  match tree.find base path with
  | .ok (.file _ _) => .file
  | .ok (.program _) => .file
  | .ok _ => .other
  | .error _ => .missing

/-- The bytes of the file that a path leads to. -/
def read (tree : FileTree) (base : Place) (path : String) : Except OsError Text.Bytes :=
  match tree.find base path with
  | .error error => .error error
  | .ok (.file contents _) => .ok contents
  | .ok .directory => .error .isDirectory
  | .ok _ => .ok []

/-- The names in the directory at a place, sorted. -/
def list (tree : FileTree) (place : Place) : List String :=
  (tree.entries.filterMap fun item =>
    if item.1.dropLast == place then item.1.getLast? else none).mergeSort (fun a b => !(b < a))

/-- The place where a path leads or would lead if its last name existed. -/
def target (tree : FileTree) : Nat → Place → String → Except OsError Place
  | 0, _, _ => .error .tooManyLinks
  | links + 1, base, path =>
    match tree.resolve base path with
    | .ok place => .ok place
    | .error .notFound =>
      match (Path.names path).getLast? with
      | none => .error .notFound
      | some name =>
        match walk tree maxLinks (Path.start base path) (Path.names path).dropLast with
        | .error error => .error error
        | .ok parent =>
          if name = "." || name = ".." then .error .notFound
          else if !tree.isDirectoryAt parent then .error .notDirectory
          else
            match tree.entryAt? (parent ++ [name]) with
            | some (.link next) => tree.target links parent next
            | _ => .ok (parent ++ [name])
    | .error error => .error error

/-- The place of the file that a path names for writing, which is made if it does not exist. -/
def openWrite (tree : FileTree) (base : Place) (path : String) (truncate : Bool) :
    Except OsError (Place × FileTree) :=
  match tree.target maxLinks base path with
  | .error error => .error error
  | .ok place =>
    match tree.entryAt? place with
    | none => .ok (place, tree.set place (.file [] false))
    | some .directory => .error .isDirectory
    | some (.file contents executable) =>
      .ok (place, if truncate then tree.set place (.file [] executable)
        else tree.set place (.file contents executable))
    | some _ => .ok (place, tree)

/-- The tree with bytes added to the end of a file. -/
def append (tree : FileTree) (place : Place) (bytes : Text.Bytes) : FileTree :=
  match tree.entryAt? place with
  | some (.file contents executable) => tree.set place (.file (contents ++ bytes) executable)
  | _ => tree

/-- Makes the directories on the way along `names`, and says where they end. -/
def makeParents (tree : FileTree) (here : Place) : List String → Place × FileTree
  | [] => (here, tree)
  | name :: rest =>
    if name = "." then makeParents tree here rest
    else
      match tree.entryAt? (here ++ [name]) with
      | none => makeParents (tree.set (here ++ [name]) .directory) (here ++ [name]) rest
      | some _ =>
        match tree.walk maxLinks here [name] with
        | .ok place => makeParents tree place rest
        | .error _ => makeParents tree (here ++ [name]) rest

/-- The tree with an entry at a path, and with the directories that lead to it. -/
def install (tree : FileTree) (base : Place) (path : String) (entry : Entry) : FileTree :=
  let names := Path.names path
  let (parent, tree) := tree.makeParents (Path.start base path) names.dropLast
  match names.getLast? with
  | none => tree
  | some name => tree.set (parent ++ [name]) entry

end FileTree

end Turnstile
