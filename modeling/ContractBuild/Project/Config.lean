import ContractBuild.Bytecode.StripPolicy
import ContractBuild.Path

/-! The configuration of a project: its compilers, its cache, where imports are searched, and rules
for metadata. Every section may be left out. -/
namespace ContractBuild

/-- The compiler that is installed. -/
structure CompilerSettings where
  /-- The name or path of the executable. -/
  binary : String
  /-- Seconds that one run may take. -/
  timeout : Nat
  deriving DecidableEq

namespace CompilerSettings

/-- The compiler of a project that names none. -/
def default : CompilerSettings := ⟨"solc", 60⟩

end CompilerSettings

/-- A compiler that is reached over a network. -/
structure RemoteSettings where
  url : String
  /-- Seconds that one call may take. -/
  timeout : Nat
  /-- Whether the installed compiler stands in when the service is not reached. -/
  fallbackLocal : Bool
  deriving DecidableEq

namespace RemoteSettings

/-- Seconds that one call may take if nothing else is stated. -/
def defaultTimeout : Nat := 30

end RemoteSettings

/-- The configuration of a project. -/
structure Config where
  compiler : CompilerSettings
  remote : Option RemoteSettings
  /-- The root directory of the cache. -/
  scratch : String
  /-- Directories searched for imports, in order. -/
  searchPaths : List String
  /-- Rules for metadata that go before the built-in ones. -/
  strip : List StripSetting
  deriving DecidableEq

namespace Config

/-- The root directory of the cache of a project that names none. -/
def defaultScratch : String := ".kiln/scratch"

/-- The configuration of a project that states nothing. -/
def default : Config := ⟨.default, none, defaultScratch, [], []⟩

instance : Inhabited Config := ⟨default⟩

/-- The root directory of the cache of a project in a directory. -/
def scratchRoot (config : Config) (project : Path) : Path := project.join ⟨config.scratch⟩

/-- The directories searched for imports of a project in a directory. -/
def searchRoots (config : Config) (project : Path) : List Path :=
  config.searchPaths.map fun path => project.join ⟨path⟩

end Config

end ContractBuild
