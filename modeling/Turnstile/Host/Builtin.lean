import Turnstile.Host.Machine

/-!
# Commands of the shell itself

The commands that a shell carries out without starting a program.
-/

namespace Turnstile.Host.Machine

open Shell (Command)

/-- A frame that belongs to a loop. -/
def isLoop : Frame → Bool
  | .loopTest _ _ _ => true
  | .loopNext _ _ _ => true
  | .each _ _ _ => true
  | _ => false

/-- Leaves loops: all but the last of `count` for good, and that one too unless it goes on. -/
def leaveLoops (goesOn : Bool) : Nat → Process → Process
  | 0, process => process
  | count + 1, process =>
    let reached := process.unwind isLoop process.frames
    match reached.frames with
    | [] => reached
    | frame :: rest =>
      match count, goesOn, frame with
      | 0, true, .loopTest negated condition body =>
        { reached with frames := .loopNext negated condition body :: rest }
      | 0, true, _ => reached
      | _, _, _ => leaveLoops goesOn count { reached with frames := rest }

def isCall : Frame → Bool
  | .restoreArguments _ => true
  | _ => false

/-- Returns from a function, or from the script where there is none. -/
def returnFrom (status : Nat) (process : Process) : Process :=
  let reached := process.unwind isCall process.frames
  if reached.frames.isEmpty then process.leave status else reached.status status

/-- A number given as an argument. -/
def numberOr (absent : Nat) (arguments : List String) : Nat :=
  ((arguments.head?).bind String.toNat?).getD absent

/-- The status of a process as a shell sees it. -/
def statusOf : ExitStatus → Nat
  | .exited code => code
  | .signalled number => 128 + number

/-- Sends a signal to each process given by number. -/
def sendAll (machine : Machine) (process : Process) (line number : Nat) (targets : List String) :
    Machine :=
  let (machine, status) := targets.foldl (fun (state : Machine × Nat) target =>
    match target.toNat?.bind state.1.process? with
    | some _ => (state.1.deliver (target.toNat?.getD 0) number, state.2)
    | none => (state.1.complain process line "kill: No such process", 1))
    (machine.setProcess process, 0)
  match machine.process? process.id with
  | some later => if later.isLive then machine.setProcess (later.status status) else machine
  | none => machine

/-- Sends a signal as `kill` is asked to. -/
def kill (machine : Machine) (process : Process) (line : Nat) (arguments : List String) : Machine :=
  let send := fun (name : String) (targets : List String) =>
    match signal? name with
    | some number => machine.sendAll process line number targets
    | none =>
      (machine.complain process line ("kill: Illegal option -" ++ (name.take 1).toString)).setProcess
        (process.status 2)
  match arguments with
  | "-s" :: name :: targets => send name targets
  | "--" :: targets => machine.sendAll process line 15 targets
  | first :: targets =>
    match first.toList with
    | '-' :: name => send (String.ofList name) targets
    | _ => machine.sendAll process line 15 arguments
  | [] => machine.setProcess (process.status 2)

/-- The traps after `trap` was given an action for some signals. -/
def setTraps (process : Process) (action : String) (names : List String) : Process :=
  names.foldl (fun process name =>
    match signal? name with
    | none => process.status 1
    | some number =>
      let others := process.traps.filter fun item => item.1 != number
      { process with
        traps := if action = "-" then others else (number, action.toList) :: others })
    (process.status 0)

/-- The values that `read` gives to its variables. -/
def assignFields (names : List String) (line : String) (process : Process) : Process :=
  let blank := fun (c : Char) => c == ' ' || c == '\t'
  let rec assign : List String → List Char → Shell.Env → Shell.Env
    | [], _, env => env
    | [name], cs, env =>
      let trimmed := cs.dropWhile blank
      env.assign name (String.ofList ((trimmed.reverse.dropWhile blank).reverse))
    | name :: rest, cs, env =>
      let trimmed := cs.dropWhile blank
      let field := trimmed.takeWhile fun c => !blank c
      assign rest (trimmed.drop field.length) (env.assign name (String.ofList field))
  { process with env := assign names line.toList process.env }

/-- Runs a program of the system inside the shell, and passes on what it writes. -/
def runInside (machine : Machine) (process : Process) (name : String) (arguments : List String) :
    Option Machine :=
  (runProgram? process.directory [] machine.tree name arguments).map fun result =>
    let (machine, written) := { machine with tree := result.tree }.write (process.handle? 1) result.out
    let machine := (machine.write (process.handle? 2) result.err).1
    machine.setProcess (process.status (if written then result.status else 1))

/-- The programs that a shell carries out itself. -/
def insideNames : List String :=
  ["true", "false", "echo", "printf", "test", "[", "pwd"]

/-- Goes to another directory. -/
def changeDirectory (machine : Machine) (process : Process) (line : Nat) (path : String) :
    Machine :=
  match Image.directory machine.tree process.directory (some path) with
  | .ok directory => machine.setProcess { process.status 0 with directory }
  | .error _ =>
    (machine.complain process line ("cd: can't cd to " ++ path)).setProcess (process.status 2)

/-- The variables that arguments of the form `name=value` set. -/
def assignAll (process : Process) (arguments : List String) : Process :=
  arguments.foldl (fun process argument =>
    let cs := argument.toList
    let name := cs.takeWhile (· != '=')
    match cs.drop name.length with
    | _ :: value =>
      { process with env := process.env.assign (String.ofList name) (String.ofList value) }
    | [] => process) (process.status 0)

/-- Carries out a command of the shell itself; none if the name is not one. -/
def builtin? (machine : Machine) (process : Process) (line : Nat) (name : String)
    (arguments : List String) : Option Machine :=
  let done := fun (process : Process) => some (machine.setProcess process)
  if insideNames.contains name then machine.runInside process name arguments
  else
    match name with
    | ":" => done (process.status 0)
    | "exit" => done (process.leave (numberOr process.env.status arguments % 256))
    | "return" => done (returnFrom (numberOr process.env.status arguments) process)
    | "break" => done (leaveLoops false (numberOr 1 arguments) (process.status 0))
    | "continue" => done (leaveLoops true (numberOr 1 arguments) (process.status 0))
    | "cd" => some (machine.changeDirectory process line (arguments.headD "/"))
    | "kill" => some (machine.kill process line arguments)
    | "trap" =>
      match arguments with
      | [] => done (process.status 0)
      | [name] => done (setTraps process "-" [name])
      | action :: names => done (setTraps process action names)
    | "wait" =>
      let targets := if arguments.isEmpty then process.jobs else arguments.filterMap String.toNat?
      done (process.push [.awaitJobs targets])
    | "read" =>
      let names := arguments.filter fun argument => argument.toList.head? != some '-'
      done (process.push [.read (if names.isEmpty then ["REPLY"] else names)])
    | "eval" => done (process.push [.run (Shell.parse (" ".intercalate arguments).toList)])
    | "shift" =>
      let count := numberOr 1 arguments
      done { process.status 0 with
        env := { process.env with arguments := process.env.arguments.drop count, status := 0 } }
    | "set" =>
      match arguments with
      | "--" :: rest =>
        done { process with env := { process.env with arguments := rest, status := 0 } }
      | _ => done (process.status 0)
    | "unset" =>
      done { process with
        env := { arguments.foldl (fun env name => env.unset name) process.env with status := 0 } }
    | "export" => done (assignAll process arguments)
    | "readonly" => done (assignAll process arguments)
    | "local" => done (assignAll process arguments)
    | _ => none

end Turnstile.Host.Machine
