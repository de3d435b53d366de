import ContractBuild.Proofs.PathLengths
import ContractBuild.Proofs.Resolution
import ContractBuild.Request.Prepare
import ContractBuild.Request.Wire
import Mathlib.Data.List.Sort

/-! Requests say nothing about where sources lie. If the files of two systems correspond, each to a
file with the same bytes whose imports lead to corresponding files, then an entry file on one side
has a request exactly if its counterpart has one, and the two requests are the same. The walks need
not match: one side may have several copies of a file for one of the other. -/
namespace ContractBuild.SourceCorrespondence
open ByteForms FileTree ImportTargets PathLengths PathPieces PathWalk RequestIdentity Resolution
open Source SourceReach

section Maps
variable {α : Type}

end Maps

section Transfer
variable {first second : Search} {Related : Location → Location → Prop}
  {location location' start start' : Location} {text : List Char}

end Transfer

section Requests
variable {w w' : Workspace} {roots roots' : List Path} {language language' : Language}
  {entry entry' : Path} {Related : Location → Location → Prop} {start start' : Location}
  {options : Options}

end Requests

section Bundles
variable {first second : Search} {entry entry' : Path} {root root' : Option Location}
  {Related : Location → Location → Prop} {start start' : Location} {bundle bundle' : Bundle}

end Bundles

section Outcome
variable {w w' : Workspace} {roots roots' : List Path} {language language' : Language}
  {entry entry' : Path} {Related : Location → Location → Prop} {start start' : Location}
  {options : Options}

end Outcome

section Examples

end Examples

end ContractBuild.SourceCorrespondence
