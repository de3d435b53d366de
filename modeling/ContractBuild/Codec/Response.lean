import ContractBuild.Codec.Basic
import ContractBuild.Response.Basic

/-! The binary form of responses, in which they are kept in a cache. -/
namespace ContractBuild.Codec

/-- A compiled object. -/
def object (item : CompiledObject) : Bytes :=
  text item.name ++ text item.bytecode ++ text item.interface

/-- Reads a compiled object. -/
def readObject? (bytes : Bytes) : Option (CompiledObject × Bytes) := do
  let (name, bytes) ← readText? bytes
  let (bytecode, bytes) ← readText? bytes
  let (interface, bytes) ← readText? bytes
  return (⟨name, bytecode, interface⟩, bytes)

/-- A response. -/
def response (value : Response) : Bytes :=
  list object value.objects ++ text value.warning ++ text value.version ++ text value.error

/-- Reads a response. -/
def readResponse? (bytes : Bytes) : Option (Response × Bytes) := do
  let (objects, bytes) ← readList? readObject? bytes
  let (warning, bytes) ← readText? bytes
  let (version, bytes) ← readText? bytes
  let (error, bytes) ← readText? bytes
  return (⟨objects, warning, version, error⟩, bytes)

end ContractBuild.Codec
