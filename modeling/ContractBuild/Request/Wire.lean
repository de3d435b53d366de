import ContractBuild.Json.Decode
import ContractBuild.Json.Printer
import ContractBuild.Request.Basic

/-! The wire format of requests: a JSON object with the fields of the request in order. -/
namespace ContractBuild.Request

open Json Source

/-- An included file as a JSON value. -/
def fileValue (file : IncludedFile) : Value :=
  .object [("object_names", .array (file.objectNames.map .string)), ("script", .string file.script)]

/-- A request as a JSON value. -/
def toValue (request : Request) : Value :=
  .object [
    ("language", .string request.language.tag),
    ("optimize", .bool request.optimize),
    ("libraries", .string request.libraries),
    ("entry", .string request.entry),
    ("includes", .object (request.includes.entries.map fun (key, file) => (key, fileValue file)))]

/-- A request as it is sent. -/
def toWire (request : Request) : String := String.ofList request.toValue.compact

/-- A request with one item to a line. -/
def toPretty (request : Request) : String := String.ofList (request.toValue.pretty 0)

/-- The language that a document names: by its tag, or by an object with the tag for its one key and
null for its value. -/
def readLanguage (tree : Tree) : Option Language :=
  match tree with
  | .object [(raw, .null)] => (unescape raw).bind fun tag => Language.ofTag? (String.ofList tag)
  | tree => tree.text?.bind Language.ofTag?

/-- The included file that a document writes. -/
def readFile (tree : Tree) : Option IncludedFile :=
  match tree.fields? ["object_names", "script"] with
  | some [names, script] => do
    return ⟨← Tree.required? (Tree.listOf? Tree.text?) names, ← Tree.required? Tree.text? script⟩
  | _ => none

/-- The included files that a document writes. Of a key given more than once the last file
counts. -/
def readIncludes (tree : Tree) : Option IncludeMap := do
  let members ← tree.members?
  let files ← members.mapM fun (key, file) => (readFile file).map fun file => (key, file)
  return KeyMap.ofList files

/-- The request that a document writes. -/
def ofTree? (tree : Tree) : Option Request :=
  match tree.fields? ["language", "optimize", "libraries", "entry", "includes"] with
  | some [language, optimize, libraries, entry, includes] => do
    return {
      language := ← Tree.required? readLanguage language
      optimize := ← Tree.required? Tree.bool? optimize
      libraries := ← Tree.required? Tree.text? libraries
      entry := ← Tree.required? Tree.text? entry
      includes := ← Tree.required? readIncludes includes }
  | _ => none

/-- The request that a text writes. -/
def ofWire? (text : String) : Option Request := (Tree.parse? text.toList).bind ofTree?

end ContractBuild.Request
