import Turnstile.Host.Builtin

/-!
# Steps of processes

What a process does at one step: it takes the topmost frame of its work and does
a part of it, or replaces it by others.
-/

namespace Turnstile.Host.Machine

open Shell (Command)
open Text (Bytes)

/-! ## Starting programs -/

/-- Options of a shell that change nothing here. -/
def isShellOption (cs : List Char) : Bool :=
  match cs with
  | sign :: letters =>
    (sign == '-' || sign == '+') && !letters.isEmpty &&
      letters.all fun c => "aefnuvx".toList.contains c
  | [] => false

/-- A process that runs a script. -/
def runScript (process : Process) (name : String) (arguments : List String) (source : List Char) :
    Process :=
  { process with
    env := { process.env with name, arguments, shellId := process.id }
    frames := [.run (Shell.parse source)] }

/-- Ends a process with a complaint that bears no line. -/
def refuse (machine : Machine) (process : Process) (status : Nat) (text : String) : Machine :=
  (machine.complain process 0 text).finish process (.exited status)

/-- A process becomes a shell. -/
def becomeShell (machine : Machine) (process : Process) (name : String) :
    List String → Machine
  | [] => machine.setProcess { process with frames := [.program "sh" [] []] }
  | "-c" :: rest =>
    match rest with
    | [] => machine.refuse process 2 "-c requires an argument"
    | source :: rest =>
      machine.setProcess (runScript process (rest.headD name) (rest.drop 1) source.toList)
  | first :: rest =>
    if isShellOption first.toList then becomeShell machine process name rest
    else if first.toList.head? = some '-' then
      machine.refuse process 2
        ("Illegal option " ++ (if first.startsWith "--" then "--" else first))
    else
      match machine.tree.read process.directory first with
      | .error error => machine.refuse process 2 (cannotOpen first error)
      | .ok contents =>
        machine.setProcess (runScript process first rest (Text.decodeLossy contents).toList)

/-- A process goes to sleep as `sleep` is asked to. -/
def becomeSleep (machine : Machine) (process : Process) (arguments : List String) : Machine :=
  let fail := fun (text : String) =>
    (machine.write (process.handle? 2)
      (Text.encode ("sleep: " ++ text ++ "\nTry 'sleep --help' for more information.\n"))).1.finish
        process (.exited 1)
  match arguments.find? fun argument => (sleepSpan? argument).isNone with
  | some argument => fail ("invalid time interval '" ++ argument ++ "'")
  | none =>
    if arguments.isEmpty then fail "missing operand"
    else
      let span := (arguments.filterMap sleepSpan?).foldl (· + ·) 0
      machine.setProcess ({ process with frames := [.sleep (machine.clock + span)] }.status 0)

/-- A process becomes a program. -/
def become (machine : Machine) (process : Process) (image : Image) (argv : List String) : Machine :=
  let fresh := { process with traps := process.inheritedTraps, caught := [] }
  let arguments := image.arguments ++ argv.drop 1
  let named := { fresh with env := { fresh.env with name := argv.headD "" } }
  match image.program with
  | "sh" => machine.becomeShell named (argv.headD "") arguments
  | "sleep" => machine.becomeSleep named arguments
  | name => machine.setProcess { named with frames := [.program name arguments []] }

/-- The file that a command names is started in place of a process. -/
def start (machine : Machine) (process : Process) (line : Nat) (argv : List String) : Machine :=
  let name := argv.headD ""
  match Image.ofCommand machine.tree process.directory name with
  | .ok image => machine.become process image argv
  | .error .notExecutable =>
    machine.become process ⟨[], "sh", [name]⟩ argv
  | .error error =>
    let denied := error = .permissionDenied || error = .isDirectory
    (machine.complain process line
      (name ++ ": " ++ (if denied then "Permission denied" else "not found"))).finish process
        (.exited (if denied then 126 else 127))

/-! ## Simple commands -/

/-- The names in the directory of a process. -/
def namesFor (machine : Machine) (process : Process) : List String :=
  machine.tree.list process.directory

def assignWords (env : Shell.Env) (assignments : List (String × Shell.Word)) : Shell.Env :=
  assignments.foldl (fun env item => env.assign item.1 (Shell.expandText env item.2)) env

/-- Whether a word holds the output of a command. -/
def holdsResult (word : Shell.Word) : Bool :=
  word.any fun
    | .result _ _ => true
    | _ => false

/-- Runs a simple command whose words are free of commands. -/
def runSimple (machine : Machine) (process : Process) (line : Nat)
    (assignments : List (String × Shell.Word)) (words : List Shell.Word)
    (redirects : List Shell.Redirect) : Machine :=
  let argv := words.flatMap (Shell.expandWord process.env (machine.namesFor process))
  match redirectAll process machine process.handles redirects with
  | .error reason => (machine.complain process line reason).setProcess (process.status 2)
  | .ok (handles, machine) =>
    let assigned := { process with env := assignWords process.env assignments }
    match argv with
    | [] =>
      let kept := assignments.any fun item => holdsResult item.2
      machine.setProcess (if kept then assigned else assigned.status 0)
    | "exec" :: [] => machine.setProcess ({ assigned with handles }.status 0)
    | "exec" :: command =>
      machine.setProcess { assigned with handles, frames := [.start line command] }
    | name :: arguments =>
      let inside := if redirects.isEmpty then assigned
        else ({ assigned with handles }).push [.restore process.handles]
      match assigned.env.functions.lookup name with
      | some body =>
        machine.setProcess
          ({ inside with env := { inside.env with arguments } }.push
            [.run body, .restoreArguments process.env.arguments])
      | none =>
        match machine.builtin? inside line name arguments with
        | some later => later
        | none =>
          let (child, machine) := machine.fork assigned handles [.start line argv]
          machine.setProcess (process.push [.await [child]])

/-! ## Compound commands -/

/-- The children of a pipeline, each reading what the one before it writes. -/
def forkStages (process : Process) (input : Option Handle) :
    Machine → List Command → List Nat × Machine
  | machine, [] => ([], machine)
  | machine, [last] =>
    let handles := match input with
      | some handle => Process.setHandle process.handles 0 (some handle)
      | none => process.handles
    let (child, machine) := machine.fork process handles [.run last]
    ([child], machine)
  | machine, stage :: rest =>
    let (pipe, machine) := machine.openPipe []
    let reading := match input with
      | some handle => Process.setHandle process.handles 0 (some handle)
      | none => process.handles
    let handles := Process.setHandle reading 1 (some (.writer pipe))
    let (child, machine) := machine.fork process handles [.run stage]
    let (others, machine) := forkStages process (some (.reader pipe)) machine rest
    (child :: others, machine)

/-- The first clause with a pattern that matches a text. -/
def chosen (env : Shell.Env) (text : String) (clauses : List (List Shell.Word × Command)) :
    Command :=
  (clauses.findSome? fun clause =>
    if clause.1.any fun word => Shell.patternMatches (Shell.expandWhole env word) text then
      some clause.2
    else none).getD .nothing

/-- Runs a command; `process` has given up the frame that held it. -/
def runCommand (machine : Machine) (process : Process) (command : Command) : Machine :=
  match command.source? with
  | some source =>
    let (pipe, machine) := machine.openPipe []
    let (child, machine) := machine.fork process
      (Process.setHandle process.handles 1 (some (.writer pipe))) [.run (Shell.parse source)]
    machine.setProcess (process.push [.fill pipe child [] command])
  | none =>
    match command with
    | .nothing => machine.setProcess process
    | .simple line assignments words redirects =>
      machine.runSimple process line assignments words redirects
    | .pipeline stages =>
      let (children, machine) := forkStages process none machine stages
      machine.setProcess (process.push [.await children])
    | .invert body => machine.setProcess (process.push [.run body, .invert])
    | .both first second => machine.setProcess (process.push [.run first, .ifOk second])
    | .either first second => machine.setProcess (process.push [.run first, .ifFailed second])
    | .sequence first second => machine.setProcess (process.push [.run first, .run second])
    | .background body =>
      let (child, machine) := machine.fork process
        (Process.setHandle process.handles 0 (some (.reader 0))) [.run body]
      machine.setProcess { process with
        env := { process.env with lastJob := some child, status := 0 }
        jobs := process.jobs ++ [child] }
    | .branch condition yes no =>
      machine.setProcess (process.push [.run condition, .branch yes no])
    | .loop negated condition body =>
      machine.setProcess (process.push [.run condition, .loopTest negated condition body])
    | .each name words body =>
      let values := match words with
        | none => process.env.arguments
        | some words => words.flatMap (Shell.expandWord process.env (machine.namesFor process))
      machine.setProcess ((process.status 0).push [.each name values body])
    | .choose subject clauses =>
      let body := chosen process.env (Shell.expandText process.env subject) clauses
      machine.setProcess ((process.status 0).push [.run body])
    | .redirected body redirects =>
      match redirectAll process machine process.handles redirects with
      | .error reason => (machine.complain process 1 reason).setProcess (process.status 2)
      | .ok (handles, machine) =>
        machine.setProcess
          ({ process with handles }.push [.run body, .restore process.handles])
    | .subshell body =>
      let (child, machine) := machine.fork process process.handles [.run body]
      machine.setProcess (process.push [.await [child]])
    | .define name body =>
      machine.setProcess { process with
        env := { process.env with functions := (name, body) :: process.env.functions, status := 0 } }
    | .malformed line reason =>
      (machine.complain process line ("Syntax error: " ++ reason)).setProcess (process.leave 2)

/-! ## Waiting -/

/-- What a shell says about a child that a signal ended. -/
def signalText? : ExitStatus → Option String
  | .exited _ => none
  | .signalled number =>
    [(1, "Hangup"), (3, "Quit"), (6, "Aborted"), (9, "Killed"), (10, "User defined signal 1"),
      (11, "Segmentation fault"), (12, "User defined signal 2"), (14, "Alarm clock"),
      (15, "Terminated")].lookup number

/-- The last of some children that have ended, and what is to be said about it. -/
def collectStatus (machine : Machine) (process : Process) (children : List Nat) : Machine :=
  match (children.getLast?).bind machine.endOf? with
  | none => machine.setProcess process
  | some ended =>
    let said := match signalText? ended with
      | some text => (machine.write (process.handle? 2) (Text.encode (text ++ "\n"))).1
      | none => machine
    (said.setProcess (process.status (statusOf ended))).reap children

/-- Whether the topmost frame keeps signals that were caught waiting. -/
def isForeground : List Frame → Bool
  | .await _ :: _ => true
  | .fill _ _ _ _ :: _ => true
  | _ => false

/-- Whether all of some processes have ended. -/
def allEnded (machine : Machine) (ids : List Nat) : Bool :=
  ids.all fun id => (machine.endOf? id).isSome

/-- Whether a process can take a step. -/
def isReady (machine : Machine) (process : Process) : Bool :=
  process.isLive &&
    ((!process.caught.isEmpty && !isForeground process.frames) ||
      match process.frames with
      | .await children :: _ => machine.allEnded children
      | .awaitJobs children :: _ => machine.allEnded children
      | .fill pipe child _ _ :: _ =>
        !(machine.pipeBytes pipe).isEmpty ||
          (!machine.hasWriter pipe && machine.allEnded [child])
      | .sleep wake :: _ => wake ≤ machine.clock
      | .read _ :: _ =>
        (machine.pipeBytes (inputOf process)).contains 10 || !machine.hasWriter (inputOf process)
      | .program name arguments _ :: _ =>
        !(name == "sh" || readsInput name arguments) || machine.isReadable (inputOf process)
      | _ => true)

/-! ## The step -/

/-- The bytes without line feeds at their end. -/
def trimLines (bytes : Bytes) : Bytes :=
  (bytes.reverse.dropWhile (· == 10)).reverse

/-- A program reads more input, or does what it has to do. -/
def runFrame (machine : Machine) (process : Process) (name : String) (arguments : List String)
    (input : Bytes) : Machine :=
  let pipe := inputOf process
  let more := machine.pipeBytes pipe
  if (name == "sh" || readsInput name arguments) && !more.isEmpty then
    (machine.setPipe pipe []).setProcess
      { process with frames := [.program name arguments (input ++ more)] }
  else if name == "sh" then
    machine.setProcess (runScript process process.env.name [] (Text.decodeLossy input).toList)
  else
    match runProgram? process.directory input machine.tree name arguments with
    | none => machine.finish process (.exited 127)
    | some result =>
      let machine := ({ machine with tree := result.tree }.write (process.handle? 1) result.out).1
      let machine := (machine.write (process.handle? 2) result.err).1
      machine.finish process (.exited result.status)

/-- A shell reads a line into variables. -/
def readLine (machine : Machine) (process : Process) (names : List String) : Machine :=
  let pipe := inputOf process
  let bytes := machine.pipeBytes pipe
  let line := bytes.takeWhile (· != 10)
  let found := line.length < bytes.length
  let assigned := assignFields names (Text.decodeLossy line) process
  (machine.setPipe pipe (bytes.drop (line.length + 1))).setProcess
    (assigned.status (if found then 0 else 1))

/-- Acts on the first of the signals that a process has caught. -/
def runTrap (machine : Machine) (process : Process) (number : Nat) (others : List Nat) : Machine :=
  let acting := { process with caught := others }
  let woken := match acting.frames with
    | .awaitJobs _ :: rest => { acting with frames := rest }.status (128 + number)
    | _ => acting
  match process.traps.lookup number with
  | some action =>
    machine.setProcess (woken.push [.run (Shell.parse action), .setStatus woken.env.status])
  | none => machine.setProcess woken

/-- One step of a process that is ready. -/
def step (machine : Machine) (process : Process) : Machine :=
  match process.caught, isForeground process.frames with
  | number :: others, false => machine.runTrap process number others
  | _, _ =>
    match process.frames with
    | [] =>
      if (process.traps.lookup 0).any fun action => !action.isEmpty then
        machine.setProcess (process.leave process.env.status)
      else machine.finish process (.exited process.env.status)
    | frame :: rest =>
      let later := { process with frames := rest }
      let succeeded := process.env.status == 0
      match frame with
      | .run command => machine.runCommand later command
      | .ifOk command =>
        machine.setProcess (if succeeded then later.push [.run command] else later)
      | .ifFailed command =>
        machine.setProcess (if succeeded then later else later.push [.run command])
      | .invert => machine.setProcess (later.status (if succeeded then 1 else 0))
      | .branch yes no =>
        let next := if succeeded then yes else no
        machine.setProcess ((later.status 0).push [.run next])
      | .loopTest negated condition body =>
        machine.setProcess
          (if succeeded != negated then
            later.push [.run body, .loopNext negated condition body]
          else later.status 0)
      | .loopNext negated condition body =>
        machine.setProcess (later.push [.run condition, .loopTest negated condition body])
      | .each name values body =>
        match values with
        | [] => machine.setProcess later
        | value :: values =>
          machine.setProcess ({ later with env := later.env.assign name value }.push
            [.run body, .each name values body])
      | .restore handles => machine.setProcess { later with handles }
      | .restoreArguments arguments =>
        machine.setProcess { later with env := { later.env with arguments } }
      | .await children => machine.collectStatus later children
      | .awaitJobs children =>
        let status := ((children.getLast?).bind machine.endOf?).elim 0 statusOf
        (machine.setProcess ({ later with
          jobs := later.jobs.filter fun id => !children.contains id }.status status)).reap children
      | .fill pipe child output command =>
        let more := machine.pipeBytes pipe
        if more.isEmpty then
          let status := (machine.endOf? child).elim 0 statusOf
          let text := (Text.decodeLossy (trimLines output)).toList
          (machine.setProcess ((later.status status).push [.run (command.fill text)])).reap [child]
        else
          (machine.setPipe pipe []).setProcess
            (later.push [.fill pipe child (output ++ more) command])
      | .sleep _ => machine.setProcess later
      | .read names => machine.readLine later names
      | .start line argv => machine.start later line argv
      | .program name arguments input => machine.runFrame later name arguments input
      | .setStatus status => machine.setProcess (later.status status)

end Turnstile.Host.Machine
