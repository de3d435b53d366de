import ContractBuild.Shell.Script
import ContractBuild.Text.Decimal
import ContractBuild.Workspace

/-! The state of a shell that runs a script, and the actions on it that the rest is built from. A
shell counts the time that its script sleeps, and stops a script that takes too long. -/
namespace ContractBuild.Shell

/-- Where a command writes to. -/
inductive Sink where
  /-- Something that collects what is written. -/
  | buffer (id : Nat)
  | file (path : Path)
  | nowhere

/-- Where the commands of a part of a script write to. -/
structure Streams where
  output : Sink
  errors : Sink

/-- The state of a shell. -/
structure Machine where
  workspace : Workspace
  bindings : List (Raw × Raw)
  functions : List (Raw × Command)
  /-- The name the shell was called by. -/
  name : Raw
  arguments : List Raw
  /-- How the last command ended. -/
  status : Nat
  /-- What is left of the input. -/
  input : Raw
  /-- What each buffer has collected, last first. -/
  buffers : List (Nat × List Raw)
  /-- Milliseconds that have passed, and milliseconds that may. -/
  elapsed : Nat
  limit : Nat
  /-- Line breaks in the script, and line breaks after the command that runs. -/
  lines : Nat
  after : Nat
  /-- Whether the shell ends when a command fails, and whether a failure is awaited just now. -/
  strict : Bool
  awaited : Bool
  /-- Variables that belong to the function that runs. -/
  own : List Raw

/-- Why a script does not go on with the next command. -/
inductive Interrupt where
  | exit (status : Nat)
  /-- Leave so many loops. -/
  | leave (loops : Nat)
  /-- Go on with the next round, so many loops further out. -/
  | again (loops : Nat)
  /-- Leave a function. -/
  | back (status : Nat)
  /-- Too many steps or too much time. -/
  | stopped

/-- An action of the shell. -/
abbrev Run := EStateM Interrupt Machine

namespace Run

/-- Writes a text. -/
def write (sink : Sink) (text : Raw) : Run Unit :=
  modify fun m =>
    match sink with
    | .nowhere => m
    | .buffer id =>
      { m with buffers := m.buffers.map fun (other, chunks) =>
          (other, if other = id then text :: chunks else chunks) }
    | .file path =>
      let before := (m.workspace.read path).toOption.getD []
      match m.workspace.files.write m.workspace.here path (before ++ Raw.toBytes text) with
      | .ok files => { m with workspace := { m.workspace with files } }
      | .error _ => m

/-- Sets how the last command ended. -/
def setStatus (status : Nat) : Run Unit := modify fun m => { m with status }

/-- The value of a variable or parameter. -/
def value (m : Machine) (name : Raw) : Raw :=
  match name with
  | ['?'] => Text.decimal m.status
  | ['#'] => Text.decimal m.arguments.length
  | ['0'] => m.name
  | ['$'] => Text.decimal m.workspace.process
  | ['@'] => Text.join [' '] m.arguments
  | ['*'] => Text.join [' '] m.arguments
  | name =>
    if name.all Char.isDigit then (m.arguments[Text.ofDecimal name - 1]?).getD []
    else
      match m.bindings.find? fun entry => entry.1 = name with
      | some entry => entry.2
      | none => if name = ['P', 'W', 'D'] then Raw.ofString m.workspace.here.path.text else []

/-- Whether a variable or parameter has a value. -/
def isSet (m : Machine) (name : Raw) : Bool :=
  if name.all Char.isDigit then Text.ofDecimal name ≤ m.arguments.length
  else m.bindings.any fun entry => entry.1 = name

/-- Sets a variable. -/
def assign (name value : Raw) : Run Unit :=
  modify fun m =>
    { m with bindings := (name, value) :: m.bindings.filter fun entry => entry.1 ≠ name }

/-- Lets time pass. -/
def sleep (milliseconds : Nat) : Run Unit := do
  modify fun m => { m with elapsed := m.elapsed + milliseconds }
  let m ← get
  if m.limit ≤ m.elapsed then throw .stopped

/-- Runs a part of a script whose changes to the shell are forgotten; it sets only the status. -/
def apart (act : Run Unit) : Run Unit := do
  let before ← get
  try act
  catch
    | .stopped => throw .stopped
    | .exit status => setStatus status
    | .back status => setStatus status
    | _ => pure ()
  modify fun after =>
    { before with
      workspace := { after.workspace with here := before.workspace.here }
      status := after.status
      input := after.input
      buffers := after.buffers
      elapsed := after.elapsed }

/-- What a part of a script writes. -/
def collect (act : Sink → Run Unit) : Run Raw := do
  let m ← get
  let id := m.buffers.length
  set { m with buffers := m.buffers ++ [(id, [])] }
  act (.buffer id)
  let m ← get
  let chunks := ((m.buffers.find? fun entry => entry.1 = id).map Prod.snd).getD []
  set { m with buffers := m.buffers.filter fun entry => entry.1 ≠ id }
  return chunks.reverse.flatten

/-- Runs an action on another input. -/
def withInput (input : Raw) (act : Run Unit) : Run Unit := do
  let before := (← get).input
  modify fun m => { m with input }
  act
  modify fun m => { m with input := before }

/-- How a report of the shell itself starts: with its name and the line of the command that runs. -/
def mark (m : Machine) : Raw := m.name ++ Raw.ofString s!": {m.lines + 1 - m.after}: "

/-- Reports an error of the shell itself. -/
def complain (streams : Streams) (message : String) (status : Nat) : Run Unit := do
  write streams.errors (mark (← get) ++ Raw.ofString s!"{message}\n")
  setStatus status

/-- Reports an error that ends the shell. -/
def refuse {α : Type} (streams : Streams) (message : String) : Run α := do
  complain streams message 2
  throw (.exit 2)

/-- Ends the shell if a command failed that was not to fail. -/
def check : Run Unit := do
  let m ← get
  if m.strict ∧ ¬ m.awaited ∧ m.status ≠ 0 then throw (.exit m.status)

/-- Runs a part of a script whose failure is awaited. -/
def awaiting (act : Run Unit) : Run Unit := do
  let before := (← get).awaited
  modify fun m => { m with awaited := true }
  try act
  catch interrupt =>
    modify fun m => { m with awaited := before }
    throw interrupt
  modify fun m => { m with awaited := before }

end Run

end ContractBuild.Shell
