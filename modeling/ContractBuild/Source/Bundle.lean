import ContractBuild.KeyMap
import ContractBuild.Path

/-! Bundles: the sources that one entry file needs, each under the name of its content, and the
table that leads from these names back to paths. -/
namespace ContractBuild.Source

/-- One file of a bundle. -/
structure IncludedFile where
  /-- The objects declared in the file, in order. -/
  objectNames : List String
  /-- The text, each imported path replaced by the name of the file it led to. -/
  script : String
  deriving DecidableEq

/-- The files of a bundle by the names of their contents. Files of one content are one entry. -/
abbrev IncludeMap := KeyMap IncludedFile

/-- The paths shown for the files of a bundle. -/
structure Names where
  paths : KeyMap Path
  deriving DecidableEq

namespace Names

/-- The table without names. -/
def empty : Names := ⟨KeyMap.empty⟩

/-- The table with a path for a name; the first path given for a name stays. -/
def insert (names : Names) (key : String) (path : Path) : Names :=
  ⟨names.paths.insertNew key path⟩

/-- The path shown for a name. -/
def get? (names : Names) (key : String) : Option Path := names.paths.get? key

/-- A text with each name of the table replaced by the path shown for it, name after name. -/
def restore (names : Names) (text : String) : String :=
  String.ofList <| names.paths.entries.foldl
    (fun text entry => Text.replace entry.1.toList entry.2.text.toList text) text.toList

end Names

/-- What an entry file resolves to. -/
structure Bundle where
  /-- The name of the entry file's content. -/
  entry : String
  includes : IncludeMap
  names : Names
  deriving DecidableEq

end ContractBuild.Source
