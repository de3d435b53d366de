import ContractBuild.Cache.Artifact
import ContractBuild.Codec.Response
import ContractBuild.Digest.Basic
import ContractBuild.Workspace

/-! The cache: results and sources on disk, under one root directory, in one directory for each
digest of a request. Reading never fails: what cannot be read is not there. -/
namespace ContractBuild

/-- A change to the cache failed at a path. -/
structure CacheError where
  path : Path
  cause : FileError
  deriving DecidableEq

namespace CacheError

/-- The error as it is shown. -/
def message (error : CacheError) : String :=
  s!"cache I/O error at {error.path.text}: {error.cause.message}"

end CacheError

/-- A cached result, with the version text of the compiler that it comes from. -/
structure CacheEntry where
  value : Response
  compilerVersion : String
  deriving DecidableEq

/-- A cache is known by its root directory, which need not be there. -/
structure Cache where
  root : Path
  deriving DecidableEq

namespace Cache

/-- The file that holds the result of a request. -/
def resultName : String := "result.bin"

/-- The directory of a request's sources within its own directory. -/
def sourcesName : String := "src"

/-- The directory that belongs to a digest. -/
def directory (cache : Cache) (digest : Digest) : Path := cache.root.join ⟨digest.toHex⟩

/-- The file for an artifact of a digest. -/
def file (cache : Cache) (digest : Digest) (name : String) : Path :=
  (cache.directory digest).join ⟨name⟩

/-- The directory for the sources of a digest. -/
def sources (cache : Cache) (digest : Digest) : Path :=
  (cache.directory digest).join ⟨sourcesName⟩

/-- Writes an artifact and answers its path. A reader at any time finds the file that was there
before or the whole new one. -/
def writeArtifact (cache : Cache) (digest : Digest) (name : String) (artifact : Artifact) :
    Disk CacheError Path := do
  let directory := cache.directory digest
  Disk.makeDirectories (⟨directory, ·⟩) directory
  Disk.writeWhole (fun path cause => ⟨path, cause⟩) directory name artifact.encode

/-- Reads an artifact. -/
def readArtifact? (cache : Cache) (w : Workspace) (digest : Digest) (name : String) :
    Option Artifact :=
  match w.read (cache.file digest name) with
  | .ok content => Artifact.decode? content
  | .error _ => none

/-- Keeps bytes as the result of a digest. -/
def putPayload (cache : Cache) (digest : Digest) (payload : Bytes) (compilerVersion : String) :
    Disk CacheError Unit := do
  let _ ← cache.writeArtifact digest resultName ⟨compilerVersion, payload⟩

/-- Keeps a response as the result of a digest. -/
def put (cache : Cache) (digest : Digest) (response : Response) (compilerVersion : String) :
    Disk CacheError Unit :=
  cache.putPayload digest (Codec.response response) compilerVersion

/-- The result kept for a digest, if it is a response. -/
def getEntry? (cache : Cache) (w : Workspace) (digest : Digest) : Option CacheEntry := do
  let artifact ← cache.readArtifact? w digest resultName
  let (value, _) ← Codec.readResponse? artifact.payload
  return ⟨value, artifact.compilerVersion⟩

/-- The response kept for a digest. -/
def get? (cache : Cache) (w : Workspace) (digest : Digest) : Option Response :=
  (cache.getEntry? w digest).map CacheEntry.value

/-- Whether an artifact is kept as the result of a digest, whatever its payload. -/
def contains (cache : Cache) (w : Workspace) (digest : Digest) : Bool :=
  (cache.readArtifact? w digest resultName).isSome

/-- Removes the root directory and everything in it, and answers how many entries it had. -/
def clear (cache : Cache) : Disk CacheError Nat := fun w =>
  match w.files.listDirectory w.here cache.root with
  | .error .notFound => .ok 0 w
  | .error cause => .error ⟨cache.root, cause⟩ w
  | .ok names =>
    match w.files.removeTree w.here cache.root with
    | (.ok (), files) => .ok names.length { w with files }
    | (.error .notFound, files) => .ok 0 { w with files }
    | (.error cause, files) => .error ⟨cache.root, cause⟩ { w with files }

end Cache

end ContractBuild
