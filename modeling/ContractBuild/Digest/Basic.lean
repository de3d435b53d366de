import ContractBuild.Digest.Sha256
import ContractBuild.Text.Hex

/-! Content digests. A source file and a whole compile request are known by the SHA-256 digest of
their bytes; a digest is written as sixty-four lowercase hexadecimal digits. -/
namespace ContractBuild

/-- The thirty-two bytes that identify a content. -/
structure Digest where
  bytes : Bytes
  length_eq : bytes.length = 32
  deriving DecidableEq

/-- A text that is not the form of any digest. -/
structure DigestError where
  input : String
  deriving DecidableEq

namespace DigestError

/-- The error as it is shown. -/
def message (error : DigestError) : String :=
  s!"invalid content digest '{error.input}': expected 64 hex characters"

end DigestError

namespace Digest

/-- The digest of a content. -/
def ofContent (content : Bytes) : Digest := ⟨Sha256.hash content, Sha256.length_hash content⟩

/-- The digest as sixty-four lowercase digits. -/
def toHex (digest : Digest) : String := String.ofList (Text.hex digest.bytes)

/-- The digest that sixty-four hexadecimal digits of either case write. -/
def parse (text : String) : Except DigestError Digest :=
  match Text.ofHex? text.toList with
  | some bytes => if length_eq : bytes.length = 32 then .ok ⟨bytes, length_eq⟩ else .error ⟨text⟩
  | none => .error ⟨text⟩

/-- The digest cut to its first four bytes, for diagnosis. -/
def brief (digest : Digest) : String :=
  s!"ContentDigest({String.ofList (Text.hex (digest.bytes.take 4))}..)"

/-- Digests are ordered as the byte strings they are. -/
instance : LT Digest := ⟨fun a b => a.bytes < b.bytes⟩

instance (a b : Digest) : Decidable (a < b) := inferInstanceAs (Decidable (a.bytes < b.bytes))

/-- Puts a digest into an ascending list that has each digest once. -/
def insertSorted (digest : Digest) : List Digest → List Digest
  | [] => [digest]
  | head :: rest =>
    if digest < head then digest :: head :: rest
    else if digest = head then head :: rest
    else head :: insertSorted digest rest

/-- The digests in ascending order, each once. -/
def sortUnique (digests : List Digest) : List Digest := digests.foldr insertSorted []

end Digest

end ContractBuild
