/-!
# Command line arguments

The arguments of a run say which command to carry out and with what. An option is
written with two dashes and its name or with one dash and its letter; its value is
the next argument, or follows directly, with an equals sign between or, behind a
letter, without one. Every option can be given once, and behind a lone `--` no
argument is an option. Arguments are read from left to right, and the first that
makes no sense, or asks for help, decides.
-/

namespace SchemaTypings.Command

/-! ### Requests -/

/-- What the commands can be told. -/
inductive Parameter where
  | schema
  | settings
  | moduleName
  | output
  | dryRun
deriving DecidableEq, Repr

inductive UsageError where
  | noCommand
  | unknownCommand (text : String)
  | unknownOption (text : String)
  | unexpectedArgument (text : String)
  | unexpectedValue (parameter : Parameter)
  | missingValue (parameter : Parameter)
  | repeated (parameter : Parameter)
deriving DecidableEq, Repr

structure GenerateArguments where
  schema : Option String := none
  settings : Option String := none
  moduleName : Option String := none
  output : Option String := none
  dryRun : Bool := false
deriving DecidableEq, Repr

structure CheckArguments where
  schema : Option String := none
  settings : Option String := none
deriving DecidableEq, Repr

/-- What a run is asked to do. -/
inductive Request where
  | generate (arguments : GenerateArguments)
  | check (arguments : CheckArguments)
  | version
  | help
deriving DecidableEq, Repr

/-! ### Options -/

/-- What an option takes: nothing, any text, or a path, which cannot be empty. -/
inductive Takes where
  | nothing
  | text
  | path
deriving DecidableEq, Repr

/-- An option as it is written, and what it sets. -/
structure OptionForm where
  parameter : Parameter
  word : String
  letter : Option Char
  takes : Takes
deriving DecidableEq, Repr

def settingsOption : OptionForm := ⟨.settings, "config", some 'c', .path⟩

def checkOptions : List OptionForm := [settingsOption]

def generateOptions : List OptionForm :=
  [ settingsOption,
    ⟨.moduleName, "module-name", some 'm', .text⟩,
    ⟨.output, "output", some 'o', .path⟩,
    ⟨.dryRun, "dry-run", none, .nothing⟩ ]

/-- Parameters with the values given for them. -/
abbrev Given := List (Parameter × String)

/-- Takes a value for a parameter that has none yet. -/
def give (given : Given) (parameter : Parameter) (takes : Takes) (value : String) :
    Except UsageError Given :=
  if (given.lookup parameter).isSome then .error (.repeated parameter)
  else if takes = .path && value.isEmpty then .error (.missingValue parameter)
  else .ok ((parameter, value) :: given)

/-- Takes an argument that is no option: the schema, if there is none yet. -/
def giveSchema (given : Given) (value : String) : Except UsageError Given :=
  if (given.lookup .schema).isSome then .error (.unexpectedArgument value)
  else give given .schema .path value

/-- Whether an argument is written as an option. A single dash is not. -/
def isOption (argument : String) : Bool :=
  match argument.toList with
  | '-' :: _ :: _ => true
  | _ => false

/-! ### Reading the arguments of a command -/

/-- An argument, by the way it is written: behind two dashes a word, perhaps with a
value; behind one dash a letter and what follows it. -/
inductive Form where
  | separator
  | word (name : String) (value : Option String)
  | letter (letter : Char) (rest : List Char)
  | plain

def splitWord (text : List Char) : Form :=
  match text.dropWhile (· != '=') with
  | _ :: value => .word (String.ofList (text.takeWhile (· != '='))) (some (String.ofList value))
  | [] => .word (String.ofList text) none

def formOf (argument : String) : Form :=
  match argument.toList with
  | ['-', '-'] => .separator
  | '-' :: '-' :: text => splitWord text
  | '-' :: letter :: rest => .letter letter rest
  | _ => .plain

def attached : List Char → Option String
  | [] => none
  | '=' :: value => some (String.ofList value)
  | value => some (String.ofList value)

/-- What came of reading the arguments of a command: values, or a call for help. -/
inductive Reading where
  | values (given : Given)
  | help

/-- Reads the arguments of a command with some options; `waiting` is the parameter
whose value has to come next. -/
def readArguments (options : List OptionForm) :
    (waiting : Option OptionForm) → Given → List String → Except UsageError Reading
  | none, given, [] => .ok (.values given)
  | some option, _, [] => .error (.missingValue option.parameter)
  | some option, given, argument :: rest => do
    if isOption argument then .error (.missingValue option.parameter)
    else
      let given ← give given option.parameter option.takes argument
      readArguments options none given rest
  | none, given, argument :: rest =>
    match formOf argument with
    | .separator => do return .values (← rest.foldlM giveSchema given)
    | .word "help" none => .ok .help
    | .word name value =>
      match options.find? fun option => option.word == name, value with
      | none, _ => .error (.unknownOption argument)
      | some option, none =>
        if option.takes = .nothing then do
          let given ← give given option.parameter .nothing ""
          readArguments options none given rest
        else readArguments options (some option) given rest
      | some option, some value =>
        if option.takes = .nothing then .error (.unexpectedValue option.parameter)
        else do
          let given ← give given option.parameter option.takes value
          readArguments options none given rest
    | .letter 'h' _ => .ok .help
    | .letter letter behind =>
      match options.find? fun option => option.letter == some letter, attached behind with
      | none, _ => .error (.unknownOption argument)
      | some option, none => readArguments options (some option) given rest
      | some option, some value => do
        let given ← give given option.parameter option.takes value
        readArguments options none given rest
    | .plain => do
      let given ← giveSchema given argument
      readArguments options none given rest

/-! ### Reading a request -/

def GenerateArguments.ofGiven (given : Given) : GenerateArguments where
  schema := given.lookup .schema
  settings := given.lookup .settings
  moduleName := given.lookup .moduleName
  output := given.lookup .output
  dryRun := (given.lookup .dryRun).isSome

def CheckArguments.ofGiven (given : Given) : CheckArguments where
  schema := given.lookup .schema
  settings := given.lookup .settings

def commandNames : List String := ["generate", "check", "help"]

def Request.ofArguments : List String → Except UsageError Request
  | [] => .error .noCommand
  | "generate" :: rest => do
    match ← readArguments generateOptions none [] rest with
    | .values given => return .generate (.ofGiven given)
    | .help => return .help
  | "check" :: rest => do
    match ← readArguments checkOptions none [] rest with
    | .values given => return .check (.ofGiven given)
    | .help => return .help
  | ["help"] => .ok .help
  | "help" :: topic :: rest =>
    if !commandNames.contains topic then .error (.unknownCommand topic)
    else match rest with
      | [] => .ok .help
      | other :: _ => .error (.unknownCommand other)
  | argument :: _ =>
    match formOf argument with
    | .word "version" none => .ok .version
    | .word "help" none => .ok .help
    | .letter 'V' _ => .ok .version
    | .letter 'h' _ => .ok .help
    | .separator => .error .noCommand
    | .plain => .error (.unknownCommand argument)
    | _ => .error (.unknownOption argument)

end SchemaTypings.Command
