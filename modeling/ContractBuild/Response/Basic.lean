import ContractBuild.Json.Printer

/-! Responses: what compiling one request came to. A rejected source has an error and no objects;
that is an outcome and not a failure. -/
namespace ContractBuild

/-- One compiled object. -/
structure CompiledObject where
  name : String
  /-- Hexadecimal code without its metadata. -/
  bytecode : String
  /-- The interface, as JSON text. -/
  interface : String
  deriving DecidableEq, Inhabited

/-- The outcome of compiling a request. -/
structure Response where
  /-- The compiled objects, in the order in which the compiler lists them. -/
  objects : List CompiledObject
  /-- What the compiler said before its result. -/
  warning : String
  /-- The compiler's version text, empty if it is not known. -/
  version : String
  /-- Why the compiler rejected the source, empty if it did not. -/
  error : String
  deriving DecidableEq, Inhabited

namespace Response

/-- The response for a source that the compiler rejected. -/
def rejected (diagnostics : String) : Response := ⟨[], "", "", diagnostics⟩

/-- Whether the compiler rejected the source. -/
def isRejection (response : Response) : Bool := response.error ≠ ""

/-- The first object with a name. -/
def object? (response : Response) (name : String) : Option CompiledObject :=
  response.objects.find? fun object => object.name = name

open Json

/-- An object as a JSON value. -/
def objectValue (object : CompiledObject) : Value :=
  .object [
    ("object_name", .string object.name),
    ("bytecode", .string object.bytecode),
    ("abi", .string object.interface)]

/-- A response as a JSON value. -/
def toValue (response : Response) : Value :=
  .object [
    ("objects", .array (response.objects.map objectValue)),
    ("warning", .string response.warning),
    ("version", .string response.version),
    ("error", .string response.error)]

/-- A response as JSON text with one item to a line. -/
def toPretty (response : Response) : String := String.ofList (response.toValue.pretty 0)

end Response

end ContractBuild
