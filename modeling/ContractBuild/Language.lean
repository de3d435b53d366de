import ContractBuild.Digest.Basic
import ContractBuild.Path

/-! Source languages. The extension of the entry file alone decides the language of a request. -/
namespace ContractBuild

/-- A contract language that can be bundled and compiled. -/
inductive Language where
  | solidity
  deriving DecidableEq, Inhabited

namespace Language

/-- Every language, in the order in which an extension is tried against them. -/
def all : List Language := [.solidity]

/-- The extension of source files. -/
def extension : Language → String
  | .solidity => "sol"

/-- The short name that a request carries. -/
def tag : Language → String
  | .solidity => "sol"

/-- The language with an extension, written without its dot. -/
def ofExtension? (extension : String) : Option Language :=
  all.find? fun language => language.extension = extension

/-- The language with a tag. -/
def ofTag? (tag : String) : Option Language := all.find? fun language => language.tag = tag

/-- The language that the extension of a path names. -/
def ofPath? (path : Path) : Option Language := path.extension?.bind ofExtension?

end Language

/-- The name of a content in a source language: its digest with the language's extension. -/
def Digest.fileName (digest : Digest) (language : Language) : String :=
  digest.toHex ++ "." ++ language.extension

end ContractBuild
