import ContractBuild.Language
import ContractBuild.Source.Bundle
import ContractBuild.Text.Utf8

/-! Compile requests: everything a compiler needs for one entry file, and no path of any source. The
digest of a request is the key under which its result is kept. -/
namespace ContractBuild

open Source

/-- One compilation. -/
structure Request where
  language : Language
  /-- Whether to run the optimizer. -/
  optimize : Bool
  /-- Addresses to link libraries at, as they were given. -/
  libraries : String
  /-- The name of the entry file's content. -/
  entry : String
  includes : IncludeMap
  deriving DecidableEq

namespace Request

/-- A length in eight bytes. -/
def lengthField (n : Nat) : Bytes := Bytes.littleEndian 8 n

/-- Bytes with their length before them. -/
def field (bytes : Bytes) : Bytes := lengthField bytes.length ++ bytes

/-- A text with the length of its UTF-8 form before it. -/
def textField (text : String) : Bytes := field (Text.utf8 text.toList)

/-- The form of one included file. -/
def encodeFile (key : String) (file : IncludedFile) : Bytes :=
  textField key ++ lengthField file.objectNames.length ++ file.objectNames.flatMap textField ++
    textField file.script

/-- The form of a request that its digest is taken of: every field with its length before it. -/
def encode (request : Request) : Bytes :=
  textField request.language.tag ++ field [if request.optimize then 1 else 0] ++
    textField request.libraries ++ textField request.entry ++
    lengthField request.includes.size ++
    request.includes.entries.flatMap fun (key, file) => encodeFile key file

/-- The digest that identifies a request. -/
def digest (request : Request) : Digest := Digest.ofContent request.encode

/-- The link addresses with one space between each two, if there are any. -/
def librariesArgument? (request : Request) : Option String :=
  match Text.words (fun c => Text.isBlank c || c == ',') request.libraries.toList with
  | [] => none
  | words => some (String.ofList (Text.join [' '] words))

end Request

end ContractBuild
