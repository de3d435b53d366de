import ContractBuild.Bytecode.StripPolicy
import ContractBuild.Json.Decode
import ContractBuild.Response.Basic

/-! Reading responses out of what a compiler printed: free text, and after it a JSON document that
lists the compiled contracts. -/
namespace ContractBuild

/-- What a compiler printed, diagnostics first. -/
structure CompilerOutput where
  text : String
  /-- Whether the compiler rejected the source; the text then holds its diagnostics. -/
  rejected : Bool
  deriving DecidableEq

/-- The document in a compiler's output cannot be read. -/
structure DecodeError where
  /-- The free text before the document. -/
  warning : String
  deriving DecidableEq

namespace DecodeError

/-- The error as it is shown, with a reason of the reader's own. -/
def messageWith (error : DecodeError) (reason : String) : String :=
  "failed to decode compiler output: " ++ reason ++
    (if error.warning = "" then "" else "\ncompiler said:\n" ++ error.warning)

/-- The error as it is shown. -/
def message (error : DecodeError) : String :=
  error.messageWith "not a document of compiled contracts"

end DecodeError

namespace Response

open Json

/-- How a document of compiled contracts starts. -/
def marker : List Char := "\x7b\"contracts\":".toList

/-- The free text before the document in an output, and the document. Without the start of a
document all of the output is taken for one. -/
def splitWarning (output : List Char) : List Char × List Char :=
  let output := Text.trim output
  match Text.cut? marker output with
  | some (warning, rest) => (Text.trim warning, marker ++ rest)
  | none => ([], output)

/-- The bare name of an object that is listed as `file:name`. -/
def objectName (qualified : List Char) : List Char :=
  Text.trim ((Text.split (· == ':') qualified).getLastD [])

/-- A contract as a document lists it. -/
structure Contract where
  code : String
  interface : Value

/-- A document of compiled contracts. -/
structure Document where
  contracts : List (String × Contract)
  version : Option String

/-- Brackets that are open around the interface of a contract. -/
def interfaceDepth : Nat := 3

/-- A contract; code and interface may be left out. -/
def readContract (tree : Tree) : Option Contract :=
  match tree.fields? ["bin", "abi"] with
  | some [code, interface] => do
    return {
      code := ← Tree.withDefault? "" Tree.text? code
      interface := ←
        Tree.withDefault? .null (Value.ofTree? (Value.maxDepth - interfaceDepth)) interface }
  | _ => none

/-- Entries with a value for a key: in the place of the value that the key had, or at the end. -/
def putLast {α : Type} (key : String) (value : α) : List (String × α) → List (String × α)
  | [] => [(key, value)]
  | entry :: rest => if entry.1 = key then (key, value) :: rest else entry :: putLast key value rest

/-- The contracts by their qualified names. A name listed twice keeps its first place and its last
contract. -/
def readContracts (tree : Tree) : Option (List (String × Contract)) :=
  match tree with
  | .object _ => do
    let members ← tree.members?
    let contracts ← members.mapM fun (key, value) => (readContract value).map (key, ·)
    return contracts.foldl (fun listed (key, contract) => putLast key contract listed) []
  | _ => none

/-- A version text; null stands for none. -/
def readVersion : Tree → Option (Option String)
  | .null => some none
  | tree => tree.text?.map some

/-- The document that a text writes. -/
def readDocument (text : List Char) : Option Document := do
  let tree ← Tree.parse? text
  match tree.fields? ["contracts", "version"] with
  | some [contracts, version] =>
    return {
      contracts := ← Tree.required? readContracts contracts
      version := ← Tree.withDefault? none readVersion version }
  | _ => none

/-- An interface as text. Some compilers give it as text already. -/
def interfaceText : Value → List Char
  | .string text => Text.trim text.toList
  | .null => []
  | value => value.compact

end Response

/-- How the output of a compiler is read. -/
structure OutputReader where
  policy : StripPolicy
  /-- The version of the compiler if the output does not report one. -/
  assumedVersion : Option String

namespace OutputReader

open Response

/-- The reader of projects that state no rules. -/
def default : OutputReader := ⟨.default, none⟩

/-- The response that a document tells. -/
def ofDocument (reader : OutputReader) (warning : String) (document : Document) : Response :=
  let version := (document.version.or reader.assumedVersion).getD ""
  let release := Release.ofVersion? version
  let object (entry : String × Contract) : CompiledObject := {
    name := String.ofList (objectName entry.1.toList)
    bytecode := String.ofList (reader.policy.strip release (Text.trim entry.2.code.toList))
    interface := String.ofList (interfaceText entry.2.interface) }
  ⟨document.contracts.map object, warning, version, ""⟩

/-- Reads the output of a compiler that accepted the source. -/
def readAccepted (reader : OutputReader) (output : String) : Except DecodeError Response :=
  let (warning, payload) := splitWarning output.toList
  match readDocument payload with
  | some document => .ok (reader.ofDocument (String.ofList warning) document)
  | none => .error ⟨String.ofList warning⟩

/-- Reads the output of a compiler. -/
def read (reader : OutputReader) (output : CompilerOutput) : Except DecodeError Response :=
  if output.rejected then .ok (Response.rejected (String.ofList (Text.trim output.text.toList)))
  else reader.readAccepted output.text

end OutputReader

end ContractBuild
