import Turnstile.Proofs.Command.Acceptance
import Turnstile.Session

/-!
# Which file is started

A request is checked from the directory of whoever makes it, and its file is
started from the directory that the request runs in.  Both find the same file if
the executable is a path from the root, or if the two directories are one.
-/

namespace Turnstile

namespace FileTree

variable {tree : FileTree}

/-- A regular file stands at a place. -/
inductive IsRegular (tree : FileTree) (place : Place) : Prop where
  | file {contents : Text.Bytes} {executable : Bool}
      (found : tree.entryAt? place = some (.file contents executable))
  | program {name : String} (found : tree.entryAt? place = some (.program name))

/-- The probe reports a file exactly if the path leads to a regular one. -/
theorem probe_eq_file_iff {base : Place} {path : String} :
    tree.probe base path = .file ↔
      ∃ place, tree.resolve base path = .ok place ∧ tree.IsRegular place := by
  unfold probe find
  cases leads : tree.resolve base path with
  | error error => simp
  | ok place =>
      simp only [Except.ok.injEq, exists_eq_left']
      cases found : tree.entryAt? place with
      | none =>
          refine iff_of_false nofun ?_
          rintro (⟨other⟩ | ⟨other⟩) <;> simp [found] at other
      | some entry =>
          cases entry with
          | file contents executable => exact iff_of_true rfl (.file found)
          | program name => exact iff_of_true rfl (.program found)
          | _ =>
              refine iff_of_false nofun ?_
              rintro (⟨other⟩ | ⟨other⟩) <;> simp [found] at other

/-- A path from the root leads to one place from everywhere. -/
theorem resolve_of_isAbsolute (tree : FileTree) {path : String}
    (absolute : Path.isAbsolute path = true) (base other : Place) :
    tree.resolve base path = tree.resolve other path := by
  simp [resolve, Path.start, absolute]

end FileTree

namespace Image

variable {tree : FileTree} {base : Place} {token : String} {place : Place} {image : Image}

/-- The file of an image is the one that stands at the place. -/
theorem place_of_ofEntry (made : ofEntry tree base token place = .ok image) :
    image.place = place := by
  unfold ofEntry at made
  split at made
  · cases made
    rfl
  · split at made
    · cases made
    · split at made
      · cases made
        rfl
      · cases made
      · cases made
  · cases made
  · cases made

theorem ofCommand_of_slash (slash : '/' ∈ token.toList)
    (leads : tree.resolve base token = .ok place) :
    ofCommand tree base token = ofEntry tree base token place := by
  rw [ofCommand, if_pos (by simpa using slash), ofPath, leads]

/-- A command is started from the directory that its process starts in. -/
theorem start_eq_ok_iff {workingDir : Option String} {directory : Place} :
    start tree base workingDir token = .ok (directory, image) ↔
      Image.directory tree base workingDir = .ok directory ∧
        ofCommand tree directory token = .ok image := by
  unfold start
  cases inside : Image.directory tree base workingDir with
  | error error => simp
  | ok place =>
      simp only [Except.ok.injEq]
      constructor
      · intro started
        cases command : ofCommand tree place token with
        | error error => simp [command] at started
        | ok found =>
            simp only [command] at started
            cases started
            exact ⟨rfl, command⟩
      · rintro ⟨rfl, made⟩
        rw [made]

end Image

namespace Session

variable {session : Session} {request : Request} {place : Place}

/-- The executable token of a request. -/
def executable (request : Request) : String :=
  request.argv.headD ""

/-- The place at which the check of a request finds its executable. -/
def checkedAt? (session : Session) (request : Request) : Option Place :=
  match session.machine.tree.resolve session.machine.home (executable request) with
  | .ok place => some place
  | .error _ => none

/-- The place of the file that is started for a request. -/
def startedAt? (session : Session) (request : Request) : Option Place :=
  match Image.start session.machine.tree session.machine.home request.workingDir
      (executable request) with
  | .ok (_, image) => some image.place
  | .error _ => none

/-- A request is started exactly if there is a file to start it from. -/
theorem spawns_iff : (∃ id machine,
    session.machine.spawn request.workingDir request.argv true = .ok (id, machine)) ↔
      ∃ place, session.startedAt? request = some place := by
  unfold Host.Machine.spawn startedAt? executable
  cases Image.start session.machine.tree session.machine.home request.workingDir
      (request.argv.headD "") with
  | error error => simp
  | ok found => simp

/-- The executable is a path from the root, or the request runs where it is made. -/
def IsAnchored (session : Session) (request : Request) : Prop :=
  Path.isAbsolute (executable request) = true ∨
    Image.directory session.machine.tree session.machine.home request.workingDir =
      .ok session.machine.home

/-- A path that is accepted has been found to be a regular file. -/
theorem exists_checkedAt (accepted : session.check request.argv = .ok ())
    (located : Command.Located (executable request)) :
    ∃ place, session.checkedAt? request = some place ∧
      session.machine.tree.IsRegular place := by
  obtain ⟨token, arguments, same, acceptable⟩ := Command.check_eq_ok_iff.mp accepted
  have named : executable request = token := by rw [executable, same, List.headD_cons]
  cases acceptable.granted with
  | bare plain => exact absurd (named ▸ located) plain
  | found _ file =>
      obtain ⟨place, leads, regular⟩ := FileTree.probe_eq_file_iff.mp file
      exact ⟨place, by rw [checkedAt?, named, leads], regular⟩

/-- A file can be run for a request in the directory that the request runs in. -/
def CanRun (session : Session) (request : Request) (place : Place) : Prop :=
  ∃ directory image,
    Image.directory session.machine.tree session.machine.home request.workingDir =
        .ok directory ∧
      Image.ofEntry session.machine.tree directory (executable request) place = .ok image

theorem startedAt?_eq_some_iff : session.startedAt? request = some place ↔
    ∃ directory image,
      Image.directory session.machine.tree session.machine.home request.workingDir =
          .ok directory ∧
        Image.ofCommand session.machine.tree directory (executable request) = .ok image ∧
          image.place = place := by
  simp only [← and_assoc, ← Image.start_eq_ok_iff]
  unfold startedAt?
  split
  · rename_i directory image started
    simp [started]
  · rename_i error failed
    simp [failed]

/-- An anchored path leads to one place for the check and for the process. -/
theorem resolve_of_anchored (anchored : session.IsAnchored request) {directory : Place}
    (inside : Image.directory session.machine.tree session.machine.home request.workingDir =
      .ok directory) :
    session.machine.tree.resolve directory (executable request) =
      session.machine.tree.resolve session.machine.home (executable request) := by
  rcases anchored with absolute | home
  · exact FileTree.resolve_of_isAbsolute _ absolute _ _
  · rw [home] at inside
    cases inside
    rfl

/-- From an anchored path with a slash what is started is the file that was found. -/
theorem startedAt?_of_checkedAt? (slash : '/' ∈ (executable request).toList)
    (anchored : session.IsAnchored request) (checked : session.checkedAt? request = some place)
    (started : Place) :
    session.startedAt? request = some started ↔ started = place ∧ session.CanRun request place := by
  have leads : session.machine.tree.resolve session.machine.home (executable request) =
      .ok place := by
    unfold checkedAt? at checked
    split at checked
    · rename_i found leads
      cases checked
      exact leads
    · cases checked
  have command {directory : Place}
      (inside : Image.directory session.machine.tree session.machine.home request.workingDir =
        .ok directory) :
      Image.ofCommand session.machine.tree directory (executable request) =
        Image.ofEntry session.machine.tree directory (executable request) place :=
    Image.ofCommand_of_slash slash ((resolve_of_anchored anchored inside).trans leads)
  rw [startedAt?_eq_some_iff]
  constructor
  · rintro ⟨directory, image, inside, made, rfl⟩
    rw [command inside] at made
    exact ⟨Image.place_of_ofEntry made, directory, image, inside, made⟩
  · rintro ⟨rfl, directory, image, inside, made⟩
    exact ⟨directory, image, inside, (command inside).trans made, Image.place_of_ofEntry made⟩

/--
The check of an anchored path with a slash finds a regular file; that file is what is
started for the request, exactly if it can be run in the directory of the request.
-/
theorem starts_checked (accepted : session.check request.argv = .ok ())
    (slash : '/' ∈ (executable request).toList) (anchored : session.IsAnchored request) :
    ∃ place, session.checkedAt? request = some place ∧ session.machine.tree.IsRegular place ∧
      ∀ started, session.startedAt? request = some started ↔
        started = place ∧ session.CanRun request place := by
  obtain ⟨place, checked, regular⟩ := exists_checkedAt accepted (.inl slash)
  exact ⟨place, checked, regular, startedAt?_of_checkedAt? slash anchored checked⟩

/-- A tool in a directory, and a tool of the same name in a directory next to it. -/
def toolTree : FileTree where
  entries := [(["work"], .directory), (["work", "bin"], .directory),
    (["work", "bin", "qpdf"], .program "true"), (["work", "other"], .directory),
    (["work", "other", "bin"], .directory), (["work", "other", "bin", "qpdf"], .program "false")]

def twoTools : Session where
  executor := ({} : Setup).build
  machine := { home := ["work"], tree := toolTree }

theorem resolve_toolTree {base : Place} (inside : base = ["work"] ∨ base = ["work", "other"]) :
    toolTree.resolve base "bin/qpdf" = .ok (base ++ ["bin", "qpdf"]) := by
  rcases inside with rfl | rfl <;>
    simp +decide [FileTree.resolve, FileTree.walk, Path.names, Path.splitSlash, Path.start,
      FileTree.entryAt?, toolTree, List.lookup_cons]

theorem directory_toolTree :
    Image.directory toolTree ["work"] (some "other") = .ok ["work", "other"] := by
  have leads : toolTree.resolve ["work"] "other" = .ok ["work", "other"] := by
    simp +decide [FileTree.resolve, FileTree.walk, Path.names, Path.splitSlash, Path.start,
      FileTree.entryAt?, toolTree, List.lookup_cons]
  simp +decide [Image.directory, leads]

theorem check_twoTools : twoTools.check ["bin/qpdf"] = .ok () := by
  have file : twoTools.probe "bin/qpdf" = .file :=
    FileTree.probe_eq_file_iff.mpr ⟨_, resolve_toolTree (.inl rfl), .program rfl⟩
  refine Command.check_eq_ok_iff.mpr ⟨"bin/qpdf", [], rfl, ?_⟩
  constructor
  case toLegible => exact ⟨⟨'b', by decide, by decide⟩, by decide⟩
  case clean => exact Command.findIdx?_hasUnsafe_eq_none_iff.mp (by decide)
  case granted =>
    exact .found (.inl (by decide)) file (Command.names_iff.mpr rfl) (by decide)
      (by decide +kernel)

/-- Where it is made, a request starts the file that was checked. -/
theorem starts_checked_here :
    twoTools.check ["bin/qpdf"] = .ok () ∧ twoTools.IsAnchored ⟨["bin/qpdf"], none⟩ ∧
      ∃ place, twoTools.checkedAt? ⟨["bin/qpdf"], none⟩ = some place ∧
        twoTools.machine.tree.IsRegular place ∧
          ∀ started, twoTools.startedAt? ⟨["bin/qpdf"], none⟩ = some started ↔
            started = place ∧ twoTools.CanRun ⟨["bin/qpdf"], none⟩ place :=
  have anchored : twoTools.IsAnchored ⟨["bin/qpdf"], none⟩ := .inr rfl
  ⟨check_twoTools, anchored, starts_checked check_twoTools (by decide) anchored⟩

/-- In another directory the file that is started is not the one that was checked. -/
theorem starts_unchecked :
    twoTools.check ["bin/qpdf"] = .ok () ∧ Command.Located "bin/qpdf" ∧
      twoTools.checkedAt? ⟨["bin/qpdf"], some "other"⟩ = some ["work", "bin", "qpdf"] ∧
        twoTools.startedAt? ⟨["bin/qpdf"], some "other"⟩ =
          some ["work", "other", "bin", "qpdf"] := by
  refine ⟨check_twoTools, .inl (by decide), ?_, ?_⟩
  · simp only [checkedAt?, executable, List.headD_cons, twoTools, resolve_toolTree (.inl rfl)]
    rfl
  · have started : Image.ofCommand toolTree ["work", "other"] "bin/qpdf" =
        .ok ⟨["work", "other", "bin", "qpdf"], "false", []⟩ := by
      rw [Image.ofCommand, if_pos (by decide), Image.ofPath, resolve_toolTree (.inr rfl)]
      rfl
    simp only [startedAt?, Image.start, executable, List.headD_cons, twoTools, directory_toolTree,
      started]

end Session

end Turnstile
