import ContractBuild.Request.Basic
import ContractBuild.Response.Read
import ContractBuild.Workspace

/-! Compilers as a pipeline sees them: they take a request and answer with output, or fail to give a
verdict. A compiler may work on files and may have a state of its own. -/
namespace ContractBuild

/-- Why a run of an installed compiler gave no verdict. -/
inductive InvocationFailure where
  /-- There is no such executable. -/
  | notFound
  /-- The program could not be started. -/
  | io (cause : FileError)
  /-- The program ended with a status that is neither success nor a rejection. -/
  | exit (status : Nat) (output : String)
  /-- The program was stopped after so many milliseconds. -/
  | timeout (limit : Nat)
  deriving DecidableEq

/-- A span of time as it is shown: in seconds, or in milliseconds if it is shorter than a second. -/
def durationText (milliseconds : Nat) : String :=
  let number (n : Nat) : String := String.ofList (Text.decimal n)
  let seconds := milliseconds / 1000
  let rest := milliseconds % 1000
  if milliseconds = 0 then "0ns"
  else if seconds = 0 then number rest ++ "ms"
  else if rest = 0 then number seconds ++ "s"
  else
    let digits := (Text.decimal (1000 + rest)).drop 1
    number seconds ++ "." ++ String.ofList (digits.reverse.dropWhile (· == '0')).reverse ++ "s"

namespace InvocationFailure

/-- The failure as it is shown. -/
def message : InvocationFailure → String
  | notFound => "executable not found"
  | io cause => cause.message
  | exit status output => s!"exited with exit status: {status}: {output}"
  | timeout limit => s!"timed out after {durationText limit}"

end InvocationFailure

/-- Why a compiler gave no verdict. -/
inductive DispatchError where
  | invocation (binary : String) (failure : InvocationFailure)
  /-- The sources could not be written for the compiler. -/
  | materialize (path : Path) (cause : FileError)
  /-- A service could not be reached or did not answer as it should. -/
  | unavailable (url reason : String)
  deriving DecidableEq

namespace DispatchError

/-- The error as it is shown, with another reason for a service that is not available. -/
def messageWith (error : DispatchError) (reason : String → String) : String :=
  match error with
  | invocation binary failure => s!"compiler '{binary}' failed: {failure.message}"
  | materialize path cause => s!"failed to materialize sources at {path.text}: {cause.message}"
  | unavailable url cause => s!"remote compiler at {url} unavailable: {reason cause}"

/-- The error as it is shown. -/
def message (error : DispatchError) : String := error.messageWith id

/-- Whether another compiler may be tried. -/
def isUnavailable : DispatchError → Bool
  | unavailable .. => true
  | _ => false

end DispatchError

/-- A workspace, and the state of what is outside it. -/
structure World (σ : Type) where
  workspace : Workspace
  outside : σ

/-- An operation on a world that may fail. What it changed before it failed stays changed. -/
abbrev Act (σ ε : Type) := EStateM ε (World σ)

namespace Act

variable {σ ε ε' α : Type}

/-- An operation on the workspace alone, its failure reported as `fail` says. -/
def onDisk (fail : ε → ε') (act : Disk ε α) : Act σ ε' α := fun world =>
  match act world.workspace with
  | .ok value workspace => .ok value { world with workspace }
  | .error error workspace => .error (fail error) { world with workspace }

end Act

/-- A way to compile requests. -/
structure Compiler (σ : Type) where
  send : Request → Act σ DispatchError CompilerOutput
  /-- What the compiler is, in a few words. -/
  description : String

end ContractBuild
