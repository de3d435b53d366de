import ContractBuild.Proofs.ImportTargets
import ContractBuild.Proofs.RequestIdentity
import Mathlib.Logic.Relation

/-! What an entry file needs, told by locations alone: the files that imports lead to from it, one
after the other, the text that each of them has in a bundle, and what it takes for all of them to
resolve. Nothing here follows the order in which files are visited. -/
namespace ContractBuild.SourceReach
open FileTree ImportTargets PathWalk RequestIdentity Source

/-- The text of the file at a location, if it is UTF-8. -/
def textAt? (files : FileTree) (location : Location) : Option (List Char) :=
  (contentAt? files location).bind Text.ofUtf8?

/-- The name of the content at a location; without a file there it is empty. -/
def nameAt (search : Search) (location : Location) : String :=
  ((contentAt? search.files location).map fun content =>
    (Digest.ofContent content).fileName search.language).getD ""

/-- What is written in the place of an import: the name of the content that it leads to. -/
def replacement (search : Search) (importer : Location) (directive : Import) : Span × List Char :=
  (directive.span, (((target? search importer directive.path).map (nameAt search)).getD "").toList)

/-- The text of a file with each import replaced. -/
def rewritten (search : Search) (importer : Location) (text : List Char) : String :=
  String.ofList (replaceSpans text ((Import.scan text).map (replacement search importer)))

/-- What a bundle holds for the file at a location. -/
def bundled? (search : Search) (location : Location) : Option IncludedFile :=
  (textAt? search.files location).map fun text =>
    ⟨Declaration.scan text, rewritten search location text⟩

/-- A file imports another. -/
def Imports (search : Search) (importer target : Location) : Prop :=
  ∃ text directive, textAt? search.files importer = some text ∧ directive ∈ Import.scan text ∧
    target? search importer directive.path = some target

/-- The files that a file needs, itself among them. -/
def Reachable (search : Search) (start : Location) : Location → Prop :=
  Relation.ReflTransGen (Imports search) start

/-- What it takes for a file to resolve. -/
structure Resolvable (search : Search) (start : Location) : Prop where
  readable : ∀ location, Reachable search start location →
    ∃ text, textAt? search.files location = some text
  located : ∀ location text, Reachable search start location →
    textAt? search.files location = some text → ∀ directive ∈ Import.scan text,
      ∃ target, target? search location directive.path = some target
  agreeing : ∀ first second file file', Reachable search start first →
    Reachable search start second → nameAt search first = nameAt search second →
    bundled? search first = some file → bundled? search second = some file' →
    file.script = file'.script

/-- The paths that chains of imports write from an entry on, each with the locations of the files whose
imports led there. No file is passed twice. -/
inductive Trail (search : Search) (entry : Path) : List Location → Path → Prop where
  | entry : Trail search entry [] entry
  | step {passed : List Location} {importer target : Path} {location : Location}
      {text : List Char} {directive : Import} (before : Trail search entry passed importer)
      (found : fileFrom? search.files search.here importer = some location)
      (new : location ∉ passed) (read : textAt? search.files location = some text)
      (listed : directive ∈ Import.scan text)
      (located : search.locate? (importer.parent?.getD ⟨"."⟩) directive.path = some target) :
      Trail search entry (location :: passed) target

/-- No path that is written for an import is longer than the system takes, whatever chain of imports led
to the importer. A walk follows only some of these chains, since it enters no file again; which ones
depends on the order in which it comes by the files, and this condition does not. -/
def StaysShort (search : Search) (entry : Path) : Prop :=
  ∀ passed importer location text directive, Trail search entry passed importer →
    fileFrom? search.files search.here importer = some location → location ∉ passed →
    textAt? search.files location = some text → directive ∈ Import.scan text →
      Text.byteLength (besidePath importer directive.path).text.toList ≤ maxPathBytes

end ContractBuild.SourceReach
