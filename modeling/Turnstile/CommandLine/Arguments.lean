import Turnstile.Category

/-!
# Arguments of the program

Reading the arguments that the program is started with: options of the program
itself, a command, the options of the command, and a command line after a
double hyphen.  Reading goes from left to right and ends at the first argument
that asks for help or cannot be read.
-/

namespace Turnstile.CommandLine

/-- What the program is asked to do. -/
inductive Task where
  | run (category : Category) (workingDir : Option String) (argv : List String)
  | check (argv : List String)
  | limits (asJson : Bool)
  | endpoints (asJson : Bool)
  deriving DecidableEq, Repr

/-- The reading of all arguments. -/
inductive Invocation where
  | help
  | version
  /-- The arguments cannot be read. -/
  | misuse
  /-- A task, and the settings file to load before it. -/
  | perform (task : Task) (settingsPath : Option String)
  deriving DecidableEq, Repr

/-- Why reading ends before the last argument. -/
inductive Halt where
  | help
  | version
  | misuse
  deriving DecidableEq, Repr

/-- Where in the arguments an option stands: before the command, or after it. -/
inductive Level where
  | program
  | run
  | check
  | limits
  | endpoints
  deriving DecidableEq, Repr

namespace Level

/-- The command of a name. -/
def ofCommand? : String → Option Level
  | "run" => some .run
  | "check" => some .check
  | "limits" => some .limits
  | "endpoints" => some .endpoints
  | _ => none

/-- Whether a listing is asked for, which can be had as JSON. -/
def isListing : Level → Bool
  | .limits => true
  | .endpoints => true
  | _ => false

/-- Whether a command line is expected after a double hyphen. -/
def takesCommandLine : Level → Bool
  | .run => true
  | .check => true
  | _ => false

end Level

/-- Options that stand alone. -/
inductive Switch where
  | help
  | version
  | verbose
  | json
  deriving DecidableEq, Repr

/-- Options that take a value. -/
inductive Setting where
  | settingsPath
  | workingDir
  deriving DecidableEq, Repr

namespace Level

/-- The switch of a long name. -/
def switch? (level : Level) : String → Option Switch
  | "help" => some .help
  | "verbose" => some .verbose
  | "version" => if level = .program then some .version else none
  | "json" => if level.isListing then some .json else none
  | _ => none

/-- The switch of a letter. -/
def letter? (level : Level) : Char → Option Switch
  | 'h' => some .help
  | 'v' => some .verbose
  | 'V' => if level = .program then some .version else none
  | _ => none

/-- The option with a value of a long name. -/
def setting? (level : Level) : String → Option Setting
  | "config" => some .settingsPath
  | "cwd" => if level = .run then some .workingDir else none
  | _ => none

end Level

/-- What has been read at one level. -/
structure Options where
  verbose : Bool := false
  json : Bool := false
  settingsPath : Option String := none
  workingDir : Option String := none
  category : Option Category := none
  deriving DecidableEq, Repr

namespace Options

/-- The options with a switch turned on; none can be turned on twice. -/
def turnOn (options : Options) : Switch → Except Halt Options
  | .help => .error .help
  | .version => .error .version
  | .verbose => if options.verbose then .error .misuse else .ok { options with verbose := true }
  | .json => if options.json then .error .misuse else .ok { options with json := true }

/-- The options with a value, which is not empty; none can be given twice. -/
def assign (options : Options) (setting : Setting) (value : String) : Except Halt Options :=
  if value.isEmpty then .error .misuse
  else
    match setting with
    | .settingsPath =>
      if options.settingsPath.isSome then .error .misuse
      else .ok { options with settingsPath := some value }
    | .workingDir =>
      if options.workingDir.isSome then .error .misuse
      else .ok { options with workingDir := some value }

/-- The options with a category, which is given once. -/
def choose (options : Options) (text : String) : Except Halt Options :=
  match options.category, Category.read? text with
  | none, some category => .ok { options with category := some category }
  | _, _ => .error .misuse

/-- The options with the switches of some letters turned on. -/
def turnOnLetters (level : Level) : List Char → Options → Except Halt Options
  | [], options => .ok options
  | letter :: letters, options =>
    match level.letter? letter with
    | none => .error .misuse
    | some switch =>
      match options.turnOn switch with
      | .error halt => .error halt
      | .ok options => turnOnLetters level letters options

end Options

/-- The form of an argument. -/
inductive Word where
  /-- A double hyphen. -/
  | escape
  /-- An option by its long name, with the text after an equals sign. -/
  | long (name : String) (value : Option String)
  /-- Options by their letters. -/
  | letters (letters : List Char)
  | plain (text : String)
  deriving DecidableEq, Repr

namespace Word

/-- The form of an argument; a single hyphen is plain. -/
def ofArgument (argument : String) : Word :=
  match argument.toList with
  | ['-', '-'] => .escape
  | '-' :: '-' :: rest =>
    let name := String.ofList (rest.takeWhile (· ≠ '='))
    match rest.dropWhile (· ≠ '=') with
    | [] => .long name none
    | _ :: value => .long name (some (String.ofList value))
  | '-' :: letter :: rest => .letters (letter :: rest)
  | _ => .plain argument

end Word

/-- What follows the options of a level. -/
inductive Remainder where
  | nothing
  /-- The name of a command, and the arguments after it. -/
  | command (name : String) (rest : List String)
  /-- Everything after a double hyphen. -/
  | escaped (rest : List String)
  deriving DecidableEq, Repr

namespace Level

/-- Reads the options of a level; `pending` is the option whose value comes next, if one does. -/
def read (level : Level) : Option Setting → List String → Options →
    Except Halt (Options × Remainder)
  | none, [], options => .ok (options, .nothing)
  | some _, [], _ => .error .misuse
  | some setting, argument :: rest, options =>
    match Word.ofArgument argument with
    | .plain text =>
      match options.assign setting text with
      | .error halt => .error halt
      | .ok options => read level none rest options
    | _ => .error .misuse
  | none, argument :: rest, options =>
    match Word.ofArgument argument with
    | .escape => .ok (options, .escaped rest)
    | .letters letters =>
      match options.turnOnLetters level letters with
      | .error halt => .error halt
      | .ok options => read level none rest options
    | .plain text =>
      match level with
      | .program => .ok (options, .command text rest)
      | .run =>
        match options.choose text with
        | .error halt => .error halt
        | .ok options => read level none rest options
      | _ => .error .misuse
    | .long name none =>
      match level.switch? name, level.setting? name with
      | some switch, _ =>
        match options.turnOn switch with
        | .error halt => .error halt
        | .ok options => read level none rest options
      | none, some setting => read level (some setting) rest options
      | none, none => .error .misuse
    | .long name (some value) =>
      match level.setting? name with
      | none => .error .misuse
      | some setting =>
        match options.assign setting value with
        | .error halt => .error halt
        | .ok options => read level none rest options

end Level

/--
The settings file of a level: the one among its options, or else the one that
the environment names, whose name must then not be empty.
-/
def settingsPathFrom (environment : Option String) (options : Options) :
    Except Halt (Option String) :=
  match options.settingsPath, environment with
  | some path, _ => .ok (some path)
  | none, some path => if path.isEmpty then .error .misuse else .ok (some path)
  | none, none => .ok none

/-- The task of a command, from its options and the command line after them. -/
def Level.task? (level : Level) (options : Options) (argv : List String) : Option Task :=
  if level.takesCommandLine == argv.isEmpty then none
  else
    match level with
    | .program => none
    | .run => options.category.map fun category => .run category options.workingDir argv
    | .check => some (.check argv)
    | .limits => some (.limits options.json)
    | .endpoints => some (.endpoints options.json)

/-- Help about a command, about help itself, or about the whole program. -/
def readHelp : List String → Halt
  | [] => .help
  | [topic] => if (Level.ofCommand? topic).isSome || topic == "help" then .help else .misuse
  | _ => .misuse

/-- Reads a command and its arguments; `outer` are the options of the program. -/
def readCommand (environment : Option String) (outer : Options) (name : String)
    (arguments : List String) : Except Halt (Task × Option String) :=
  match Level.ofCommand? name with
  | none => .error (if name == "help" then readHelp arguments else .misuse)
  | some level =>
    match level.read none arguments {} with
    | .error halt => .error halt
    | .ok (options, remainder) =>
      let argv := match remainder with
        | .escaped rest => rest
        | _ => []
      match level.task? options argv, settingsPathFrom environment options,
          settingsPathFrom environment outer with
      | some task, .ok inner, .ok _ => .ok (task, options.settingsPath.or (outer.settingsPath.or inner))
      | _, _, _ => .error .misuse

/-- Reads the arguments of the program; without a command it shows its help. -/
def readArguments (environment : Option String) (arguments : List String) :
    Except Halt (Task × Option String) :=
  match Level.program.read none arguments {} with
  | .error halt => .error halt
  | .ok (outer, .command name rest) => readCommand environment outer name rest
  | .ok (outer, .escaped []) => (settingsPathFrom environment outer).bind fun _ => .error .help
  | .ok (_, .escaped _) => .error .misuse
  | .ok (outer, .nothing) => (settingsPathFrom environment outer).bind fun _ => .error .help

namespace Invocation

/-- What the arguments ask for; `environment` names the settings file if they do not. -/
def read (environment : Option String) (arguments : List String) : Invocation :=
  match readArguments environment arguments with
  | .ok (task, settingsPath) => .perform task settingsPath
  | .error .help => .help
  | .error .version => .version
  | .error .misuse => .misuse

end Invocation

end Turnstile.CommandLine
