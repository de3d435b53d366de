import ContractBuild.Shell.Expansion

/-! The commands that are part of the shell, and how it runs its utilities. -/
namespace ContractBuild.Shell

namespace Run

/-- The utilities that are part of the shell. -/
def builtins : List String := ["test", "[", "printf", "echo", "pwd"]

/-- Runs a utility; the text given stands before what it reports. -/
def useUtility (streams : Streams) (before : Raw) (utility : Utility) (arguments : List Raw) :
    Run Unit := do
  let m ← get
  let report := utility arguments m.input m.workspace
  set { m with workspace := report.workspace, status := report.status }
  if report.errors ≠ [] then write streams.errors (before ++ report.errors)
  write streams.output report.output

/-- The utilities that read all of their input if they are given no files. -/
def readers : List String := ["cat", "wc", "tr", "grep", "head", "tail", "sort"]

/-- The number that the first argument writes, if there is one. -/
def numberOr (default : Nat) (arguments : List Raw) : Nat :=
  match arguments with
  | text :: _ => ((Utility.integer? text).getD 2).toNat
  | [] => default

/-- The status that the first argument of a command writes. -/
def statusOf (streams : Streams) (name : String) (arguments : List Raw) : Run Nat := do
  match arguments with
  | [] => return (← get).status
  | text :: _ =>
    if text ≠ [] ∧ text.all Text.isDigit then return Text.ofDecimal text % 256
    else refuse streams s!"{name}: Illegal number: {Raw.text text}"

/-- The number of milliseconds that a span writes. -/
def span (text : Raw) : Nat :=
  let (text, unit) := match text.getLast? with
    | some 'm' => (text.dropLast, 60)
    | some 'h' => (text.dropLast, 3600)
    | some 's' => (text.dropLast, 1)
    | _ => (text, 1)
  let (whole, fraction) := (Text.cut? ['.'] text).getD (text, [])
  (Text.ofDecimal whole * 1000 + Text.ofDecimal ((fraction ++ ['0', '0', '0']).take 3)) * unit

/-- The first line of a text, without its newline, and the rest. -/
def firstLine (text : Raw) : Raw × Raw :=
  (text.takeWhile (· != '\n'), (text.dropWhile (· != '\n')).drop 1)

/-- A line without the backslashes that quote its characters. -/
def withoutBackslashes : Raw → Raw
  | '\\' :: c :: rest => c :: withoutBackslashes rest
  | c :: rest => c :: withoutBackslashes rest
  | [] => []

/-- Runs a command that is part of the shell, if it is one. -/
def special? (streams : Streams) (name : String) (arguments : List Raw) : Option (Run Unit) :=
  match name with
  | ":" => some (setStatus 0)
  | "exit" => some do throw (.exit (← statusOf streams name arguments))
  | "return" => some do throw (.back (← statusOf streams name arguments))
  | "break" => some (throw (.leave (numberOr 1 arguments)))
  | "continue" => some (throw (.again (numberOr 1 arguments)))
  | "shift" => some do
    let count := numberOr 1 arguments
    if (← get).arguments.length < count then refuse streams "shift: can't shift that many"
    modify fun m => { m with arguments := m.arguments.drop count, status := 0 }
  | "set" => some do
    let isFlag (word : Raw) : Bool := word ≠ ['-', '-'] && word.length > 1 &&
      (word.head? == some '-' || word.head? == some '+')
    let flags := arguments.takeWhile isFlag
    let rest := arguments.drop flags.length
    for flag in flags do
      if flag.contains 'e' then modify fun m => { m with strict := flag.head? == some '-' }
    let words := if rest.head? = some ['-', '-'] then some (rest.drop 1)
      else if rest = [] then none
      else some rest
    modify fun m => { m with arguments := words.getD m.arguments, status := 0 }
  | "unset" => some do
    modify fun m =>
      { m with bindings := m.bindings.filter fun entry => !arguments.contains entry.1, status := 0 }
  | "export" | "readonly" | "local" => some do
    for argument in arguments do
      let target := argument.takeWhile (· != '=')
      if name = "local" then modify fun m => { m with own := target :: m.own }
      if target.length < argument.length then assign target (argument.drop (target.length + 1))
    setStatus 0
  | "cd" => some do
    let m ← get
    let target := Utility.path (arguments.headD ['/'])
    match m.workspace.files.lookup m.workspace.here target with
    | .ok (here, .directory) => set { m with workspace := { m.workspace with here }, status := 0 }
    | _ => complain streams s!"cd: can't cd to {target.text}" 2
  | "read" => some do
    let m ← get
    let (line, rest) := firstLine m.input
    set { m with input := rest, status := if m.input = [] then 1 else 0 }
    let names := arguments.filter fun argument => argument.head? != some '-'
    let line := if arguments.contains ['-', 'r'] then line else withoutBackslashes line
    let marks := separators m
    let mut rest := line.dropWhile fun c => marks.contains c && isLoose c
    for (name, i) in names.zipIdx do
      if i + 1 = names.length then
        assign name (rest.reverse.dropWhile fun c => marks.contains c && isLoose c).reverse
      else
        assign name (rest.takeWhile fun c => !marks.contains c)
        let beyond := rest.dropWhile fun c => !marks.contains c
        rest := (if beyond.head?.any isLoose then beyond else beyond.drop 1).dropWhile
          fun c => marks.contains c && isLoose c
  | "sleep" => some do
    sleep (arguments.foldl (fun total argument => total + span argument) 0)
    setStatus 0
  | "umask" | "trap" | "ulimit" | "wait" => some (setStatus 0)
  | _ => none

end Run

end ContractBuild.Shell
