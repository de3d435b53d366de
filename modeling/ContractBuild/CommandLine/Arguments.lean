import ContractBuild.Request.Prepare

/-! The command line: which arguments it takes, and what they ask for. Options that hold for every
command may stand before it or after it; each option is given at most once in either place. -/
namespace ContractBuild.CommandLine

/-- How a result is printed. -/
inductive Format where
  | text
  | json
  deriving DecidableEq

/-- What is to be done. -/
inductive Command where
  | compile (entry : String) (options : Options) (format : Format)
  | request (entry : String) (options : Options)
  | clean
  deriving DecidableEq

/-- The options that hold for every command. -/
structure Globals where
  quiet : Bool
  verbose : Bool
  config : Option String
  deriving DecidableEq

/-- What a command line asks for. -/
inductive Demand where
  | run (globals : Globals) (command : Command)
  | version
  | help
  deriving DecidableEq

/-- An option. -/
inductive Switch where
  | quiet
  | verbose
  | config
  | version
  | help
  | optimize
  | libraries
  | format
  deriving DecidableEq

namespace Switch

/-- The long name. -/
def name : Switch → String
  | quiet => "quiet"
  | verbose => "verbose"
  | config => "config"
  | version => "version"
  | help => "help"
  | optimize => "optimize"
  | libraries => "libraries"
  | format => "format"

/-- The letter, if there is one. -/
def letter? : Switch → Option Char
  | quiet => some 'q'
  | verbose => some 'v'
  | version => some 'V'
  | help => some 'h'
  | format => some 'f'
  | _ => none

/-- Whether a value follows. -/
def takesValue : Switch → Bool
  | config | libraries | format => true
  | _ => false

end Switch

/-- An argument that has been understood. -/
inductive Given where
  | switch (switch : Switch) (value : Option String)
  | operand (text : String)
  deriving DecidableEq

/-- The options in one argument of letters, and an option whose value has to be in the next one. -/
def readLetters (known : List Switch) : List Char → Option (List Given × Option Switch)
  | [] => some ([], none)
  | c :: rest =>
    match known.find? fun switch => switch.letter? = some c with
    | none => none
    | some switch =>
      if switch.takesValue then
        match rest with
        | [] => some ([], some switch)
        | '=' :: value => some ([.switch switch (some (String.ofList value))], none)
        | value => some ([.switch switch (some (String.ofList value))], none)
      else
        (readLetters known rest).map fun (given, pending) => (.switch switch none :: given, pending)

/-- The option in an argument after its two dashes, or an option whose value has to be in the next
one. -/
def readName (known : List Switch) (text : List Char) : Option (List Given × Option Switch) :=
  let name := text.takeWhile (· != '=')
  let value? := (text.dropWhile (· != '=')).tail?
  match known.find? fun switch => switch.name.toList = name with
  | none => none
  | some switch =>
    match switch.takesValue, value? with
    | true, some value => some ([.switch switch (some (String.ofList value))], none)
    | true, none => some ([], some switch)
    | false, none => some ([.switch switch none], none)
    | false, some _ => none

/-- What an argument that starts with a dash stands for. A dash alone is an operand. -/
def readDashed (known : List Switch) (argument : String) : Option (List Given × Option Switch) :=
  match argument.toList with
  | '-' :: '-' :: text => readName known text
  | '-' :: c :: text => readLetters known (c :: text)
  | _ => some ([.operand argument], none)

/-- Whether a list of what is given has a switch twice. -/
def hasRepeat : List Given → Bool
  | [] => false
  | .switch switch _ :: rest =>
    rest.any (fun given => match given with
      | .switch other _ => other = switch
      | .operand _ => false) || hasRepeat rest
  | _ :: rest => hasRepeat rest

/-- Whether a list of what is given has a switch. -/
def hasSwitch (switch : Switch) (given : List Given) : Bool :=
  given.any fun one => match one with
    | .switch other _ => other = switch
    | .operand _ => false

/-- The value of a switch. -/
def valueOf? (switch : Switch) (given : List Given) : Option String :=
  given.findSome? fun one => match one with
    | .switch other value => if other = switch then value else none
    | .operand _ => none

/-- The operands. -/
def operands (given : List Given) : List String :=
  given.filterMap fun one => match one with
    | .operand text => some text
    | _ => none

/-- What arguments stand for, given what comes before them; `pending` is an option that waits for
its value. After two dashes alone everything is an operand. -/
def readAll (known : List Switch) (given : List Given) (pending : Option Switch) :
    List String → Option (List Given)
  | [] => if pending.isNone ∧ ¬ hasRepeat given then some given else none
  | argument :: arguments =>
    if argument = "--" then
      if pending.isSome ∨ hasRepeat given then none
      else some (given ++ arguments.map .operand)
    else
      match pending, readDashed known argument with
      | some switch, some ([.operand text], none) =>
        readAll known (given ++ [.switch switch (some text)]) none arguments
      | some _, _ => none
      | none, some (more, pending) => readAll known (given ++ more) pending arguments
      | none, none => none

/-- The options that hold for every command. -/
def globalSwitches : List Switch := [.quiet, .verbose, .config, .help]

/-- The options of the commands that take an entry file. -/
def entrySwitches : List Switch := [.optimize, .libraries]

/-- The request options that are given. -/
def optionsOf (given : List Given) : Options :=
  ⟨(valueOf? .libraries given).getD "", hasSwitch .optimize given⟩

/-- The format with a name. -/
def Format.ofName? (name : String) : Option Format :=
  if name = "text" then some .text else if name = "json" then some .json else none

/-- The global options given before and after a command. -/
def globalsOf (before after : List Given) : Globals :=
  { quiet := hasSwitch .quiet before || hasSwitch .quiet after
    verbose := hasSwitch .verbose before || hasSwitch .verbose after
    config := (valueOf? .config after).or (valueOf? .config before) }

/-- What the arguments of a command ask for. -/
def readCommand (before : List Given) (name : String) (arguments : List String) : Option Demand :=
  let read (known : List Switch) (command : List Given → Option Command) : Option Demand := do
    let given ← readAll (globalSwitches ++ known) [] none arguments
    if hasSwitch .help given then return .help
    return .run (globalsOf before given) (← command given)
  match name with
  | "compile" =>
    read (entrySwitches ++ [.format]) fun given =>
      match operands given, Format.ofName? ((valueOf? .format given).getD "text") with
      | [entry], some format => some (.compile entry (optionsOf given) format)
      | _, _ => none
  | "request" =>
    read entrySwitches fun given =>
      match operands given with
      | [entry] => some (.request entry (optionsOf given))
      | _ => none
  | "clean" => read [] fun given => if operands given = [] then some .clean else none
  | "help" => some .help
  | _ => none

/-- What is asked for by arguments, the global options before them being given. A request for the
version is answered as soon as it is read. -/
def readFrom (given : List Given) (pending : Option Switch) : List String → Option Demand
  | [] => none
  | argument :: arguments =>
    if argument = "--" then none
    else
      match pending, readDashed (.version :: globalSwitches) argument with
      | some switch, some ([.operand text], none) =>
        let given := given ++ [.switch switch (some text)]
        if hasRepeat given then none else readFrom given none arguments
      | some _, _ => none
      | none, some ([.operand name], none) => readCommand given name arguments
      | none, some (more, pending) =>
        let given := given ++ more
        if hasRepeat given then none
        else if hasSwitch .version given then some .version
        else if hasSwitch .help given then some .help
        else readFrom given pending arguments
      | none, none => none

/-- What a command line asks for, if it is well-formed. -/
def read (arguments : List String) : Option Demand := readFrom [] none arguments

end ContractBuild.CommandLine
