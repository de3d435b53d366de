import ContractBuild.Request.Basic
import ContractBuild.Source.Resolve
import ContractBuild.Workspace

/-! Requests from entry files: the language of the entry and the bundle it resolves to. -/
namespace ContractBuild

open Source

/-- Why no request can be made for an entry file. -/
inductive RequestError where
  /-- The extension of the entry file names no language. -/
  | unsupportedLanguage (path : Path)
  | resolve (cause : ResolveError)
  deriving DecidableEq

namespace RequestError

/-- The error as it is shown. -/
def message : RequestError → String
  | unsupportedLanguage path => s!"unsupported source language for {path.text}"
  | resolve cause => cause.message

end RequestError

/-- A request, and the paths shown for the names in it. -/
structure Prepared where
  request : Request
  names : Names
  deriving DecidableEq

/-- What a request is made of besides its sources. -/
structure Options where
  libraries : String
  optimize : Bool
  deriving DecidableEq

/-- Resolves an entry file and makes a request of it, `roots` being searched for imports. -/
def prepare (w : Workspace) (roots : List Path) (entry : Path) (options : Options) :
    Except RequestError Prepared :=
  match Language.ofPath? entry with
  | none => .error (.unsupportedLanguage entry)
  | some language =>
    match Source.resolve ⟨w.files, w.here, language, roots⟩ entry with
    | .error cause => .error (.resolve cause)
    | .ok bundle =>
      .ok ⟨⟨language, options.optimize, options.libraries, bundle.entry, bundle.includes⟩,
        bundle.names⟩

end ContractBuild
