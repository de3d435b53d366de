import ContractBuild.FileTree.Basic

/-! What changed between two file trees, in an order in which the changes can be made one by one. -/
namespace ContractBuild.FileTree

/-- The changes that lead from one tree to another. -/
structure Difference where
  /-- Locations that hold nothing any more, inner ones first. -/
  gone : List Location
  /-- Locations that hold something else now, outer ones first. -/
  changed : List (Location × Node)

/-- The changes that lead from the tree `before` to the tree `after`. -/
def difference (before after : FileTree) : Difference where
  gone :=
    ((before.entries.map Prod.fst).filter fun location => (after.get? location).isNone).mergeSort
      fun a b => b.length ≤ a.length
  changed :=
    (after.entries.filter fun (location, node) => before.get? location ≠ some node).mergeSort
      fun a b => a.1.length ≤ b.1.length

end ContractBuild.FileTree
