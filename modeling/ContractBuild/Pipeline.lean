import ContractBuild.Compiler.Installed
import ContractBuild.Compiler.Service
import ContractBuild.Project.Config
import ContractBuild.Request.Prepare

/-! The pipeline: an entry file is made into a request, the request is looked up in the cache, and
only a request that is not there goes to a compiler. Names of contents are replaced by paths last,
so what is kept in the cache serves the same sources wherever they lie. -/
namespace ContractBuild

/-- Why a pipeline has no response for an entry file. -/
inductive PipelineError where
  | request (cause : RequestError)
  | dispatch (cause : DispatchError)
  | decode (cause : DecodeError)
  | cache (cause : CacheError)
  deriving DecidableEq

namespace PipelineError

/-- The error as it is shown. -/
def message : PipelineError → String
  | request cause => cause.message
  | dispatch cause => cause.message
  | decode cause => cause.message
  | cache cause => cause.message

end PipelineError

/-- A response with the names of contents in its texts replaced by paths. -/
def Response.restore (names : Source.Names) (response : Response) : Response :=
  { response with
    warning := names.restore response.warning
    error := names.restore response.error }

/-- What a pipeline is put together from. -/
structure Pipeline (σ : Type) where
  /-- Directories searched for imports. -/
  roots : List Path
  primary : Compiler σ
  /-- The compiler that is tried when the first one is unavailable. -/
  fallback : Option (Compiler σ)
  reader : OutputReader
  cache : Cache

/-- What a pipeline needs from outside: programs and a network. -/
structure Host where
  run : ProgramRunner
  network : Network

namespace Pipeline

variable {σ : Type}

/-- The installed compiler of a project. -/
def installedCompiler (host : Host) (config : Config) (project : Path) : InstalledCompiler :=
  ⟨config.compiler.binary, ⟨config.scratchRoot project⟩, config.compiler.timeout * 1000, host.run⟩

/-- The pipeline of a project. If it names a service, the service comes first, and the installed
compiler stands in for it if the project says so. -/
def ofConfig (host : Host) (config : Config) (project : Path) : Pipeline σ :=
  let installed := (installedCompiler host config project).toCompiler
  let (primary, fallback) := match config.remote with
    | some remote =>
      ((CompilerService.mk remote.url host.network).toCompiler,
        if remote.fallbackLocal then some installed else none)
    | none => (installed, none)
  { roots := config.searchRoots project
    primary
    fallback
    reader := ⟨.ofSettings config.strip, none⟩
    cache := ⟨config.scratchRoot project⟩ }

/-- The pipeline with one compiler in the place of all it had. -/
def withCompiler (pipeline : Pipeline σ) (compiler : Compiler σ) : Pipeline σ :=
  { pipeline with primary := compiler, fallback := none }

/-- The pipeline with a compiler that is tried when the first one is unavailable. -/
def withFallback (pipeline : Pipeline σ) (compiler : Compiler σ) : Pipeline σ :=
  { pipeline with fallback := some compiler }

/-- The pipeline with a version for compilers that do not report one. -/
def withAssumedVersion (pipeline : Pipeline σ) (version : String) : Pipeline σ :=
  { pipeline with reader := { pipeline.reader with assumedVersion := some version } }

/-- Whether a cached result may be used: if the version of the compiler is known, the result has to
come from the same release. -/
def trusts (pipeline : Pipeline σ) (entry : CacheEntry) : Bool :=
  pipeline.reader.assumedVersion.all fun version => sameCompiler entry.compilerVersion version

/-- The cached result that may be used for a request. -/
def cached? (pipeline : Pipeline σ) (w : Workspace) (request : Request) : Option Response :=
  ((pipeline.cache.getEntry? w request.digest).filter pipeline.trusts).map CacheEntry.value

/-- Sends a request to the first compiler, and to the other one if the first is unavailable. -/
def dispatch (pipeline : Pipeline σ) (request : Request) : Act σ DispatchError CompilerOutput :=
  fun world =>
    match pipeline.primary.send request world with
    | .ok output after => .ok output after
    | .error error after =>
      match pipeline.fallback with
      | some fallback =>
        if error.isUnavailable then fallback.send request after else .error error after
      | none => .error error after

/-- Compiles a request that is not in the cache. Only a response for an accepted source is kept. -/
def build (pipeline : Pipeline σ) (prepared : Prepared) : Act σ PipelineError Response :=
  fun world =>
    match pipeline.dispatch prepared.request world with
    | .error error after => .error (.dispatch error) after
    | .ok output after =>
      match pipeline.reader.read output with
      | .error error => .error (.decode ⟨prepared.names.restore error.warning⟩) after
      | .ok response =>
        if response.isRejection then .ok response after
        else
          match Act.onDisk .cache
              (pipeline.cache.put prepared.request.digest response response.version) after with
          | .ok _ kept => .ok response kept
          | .error error kept => .error error kept

/-- The request for an entry file. -/
def prepared (pipeline : Pipeline σ) (w : Workspace) (entry : Path) (options : Options) :
    Except PipelineError Prepared :=
  match prepare w pipeline.roots entry options with
  | .ok prepared => .ok prepared
  | .error error => .error (.request error)

/-- Compiles an entry file. A rejected source is a response with an error. -/
def compile (pipeline : Pipeline σ) (entry : Path) (options : Options) :
    Act σ PipelineError Response := fun world =>
  match pipeline.prepared world.workspace entry options with
  | .error error => .error error world
  | .ok prepared =>
    match pipeline.cached? world.workspace prepared.request with
    | some response => .ok (response.restore prepared.names) world
    | none =>
      match pipeline.build prepared world with
      | .ok response after => .ok (response.restore prepared.names) after
      | .error error after => .error error after

/-- Removes everything in the cache and answers how many entries it had. -/
def clearCache (pipeline : Pipeline σ) : Act σ PipelineError Nat :=
  Act.onDisk .cache pipeline.cache.clear

end Pipeline

end ContractBuild
