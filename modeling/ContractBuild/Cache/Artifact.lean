import ContractBuild.Codec.Basic
import ContractBuild.Digest.Xxh3

/-! Artifact files: the length of a header in four bytes, the header, and the payload. The header
names the format and the compiler and carries a checksum of the payload, so that a damaged file is
not taken for an artifact. -/
namespace ContractBuild

/-- What an artifact file holds. -/
structure Artifact where
  /-- The version text of the compiler that the payload comes from. -/
  compilerVersion : String
  payload : Bytes
  deriving DecidableEq

namespace Artifact

/-- The header of an artifact file. -/
structure Header where
  magic : Bytes
  format : Nat
  compilerVersion : String
  checksum : Nat
  deriving DecidableEq

/-- How every artifact starts: the letters `KILN`. -/
def magic : Bytes := [0x4B, 0x49, 0x4C, 0x4E]

/-- The number of the format. -/
def format : Nat := 1

namespace Header

/-- A header as bytes. -/
def encode (header : Header) : Bytes :=
  header.magic ++ Codec.number header.format ++ Codec.text header.compilerVersion ++
    Codec.number header.checksum

/-- Reads a header from the start of bytes. -/
def read? (bytes : Bytes) : Option (Header × Bytes) := do
  let (magic, bytes) ← Bytes.take? 4 bytes
  let (format, bytes) ← Codec.readNumber? 4 bytes
  let (compilerVersion, bytes) ← Codec.readText? bytes
  let (checksum, bytes) ← Codec.readNumber? 16 bytes
  return (⟨magic, format, compilerVersion, checksum⟩, bytes)

/-- The header of an artifact. -/
def ofArtifact (artifact : Artifact) : Header :=
  ⟨Artifact.magic, Artifact.format, artifact.compilerVersion, Xxh3.checksum artifact.payload⟩

/-- Whether a header names the format and fits a payload. -/
def fits (header : Header) (payload : Bytes) : Bool :=
  header.magic = Artifact.magic && header.format = Artifact.format &&
    header.checksum = Xxh3.checksum payload

end Header

/-- The content of an artifact file. -/
def encode (artifact : Artifact) : Bytes :=
  let header := (Header.ofArtifact artifact).encode
  Bytes.littleEndian 4 header.length ++ header ++ artifact.payload

/-- The artifact that a file's content holds, if it holds one. Bytes between the end of the header
and the place where its length says it ends are passed over. -/
def decode? (content : Bytes) : Option Artifact := do
  let (length, rest) ← Bytes.take? 4 content
  let (header, payload) ← Bytes.take? (Bytes.toNat length) rest
  let (header, _) ← Header.read? header
  if header.fits payload then some ⟨header.compilerVersion, payload⟩ else none

end Artifact

end ContractBuild
