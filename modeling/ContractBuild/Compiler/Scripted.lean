import ContractBuild.Compiler.Basic

/-! A compiler that answers from a script, one answer for each call, so that a pipeline can be tried
without a real one. -/
namespace ContractBuild

/-- One answer of a script. -/
inductive ScriptedAnswer where
  /-- Output for an accepted source. -/
  | accept (text : String)
  /-- Diagnostics for a rejected source. -/
  | reject (text : String)
  /-- There is no such program. -/
  | missing
  | unavailable (reason : String)
  deriving DecidableEq

namespace ScriptedAnswer

/-- A text with the names in a request filled in: `@ENTRY@` stands for the entry, and `@KEY0@`,
`@KEY1@` and so on for the files in order. -/
def fill (request : Request) (text : String) : String :=
  let marks := ("@ENTRY@", request.entry) ::
    request.includes.keys.zipIdx.map fun (key, i) => (s!"@KEY{i}@", key)
  String.ofList <| marks.foldl
    (fun text mark => Text.replace mark.1.toList mark.2.toList text) text.toList

/-- What an answer comes to, given by a compiler of some name. -/
def verdict (name : String) (request : Request) :
    ScriptedAnswer → Except DispatchError CompilerOutput
  | accept text => .ok ⟨fill request text, false⟩
  | reject text => .ok ⟨fill request text, true⟩
  | missing => .error (.invocation name .notFound)
  | unavailable reason => .error (.unavailable s!"http://{name}" s!"scripted: {reason}")

end ScriptedAnswer

/-- A compiler with a script. The number of calls so far is kept outside, where `calls` finds it. -/
structure ScriptedCompiler (σ : Type) where
  name : String
  answers : List ScriptedAnswer
  calls : σ → Nat
  setCalls : Nat → σ → σ

namespace ScriptedCompiler

variable {σ : Type}

/-- Gives the next answer. At the end of its script the compiler is unavailable. -/
def send (compiler : ScriptedCompiler σ) (request : Request) : Act σ DispatchError CompilerOutput :=
  fun world =>
    let calls := compiler.calls world.outside
    let world := { world with outside := compiler.setCalls (calls + 1) world.outside }
    let answer := compiler.answers[calls]?.getD (.unavailable "exhausted")
    match answer.verdict compiler.name request with
    | .ok output => .ok output world
    | .error error => .error error world

/-- The script as a compiler of a pipeline. -/
def toCompiler (compiler : ScriptedCompiler σ) : Compiler σ :=
  ⟨compiler.send, s!"scripted compiler '{compiler.name}'"⟩

end ScriptedCompiler

end ContractBuild
