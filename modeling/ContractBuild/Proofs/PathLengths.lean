import ContractBuild.Proofs.SourceReach
import Mathlib.Data.List.Perm.Subperm

/-! How long the paths are that a walk writes. Each import on the way adds its own length and a
slash, and a file is passed at most once, so in a tree of ordinary size every written path is one
that the system takes. -/
namespace ContractBuild.PathLengths
open FileTree ImportTargets PathPieces PathWalk Source SourceReach

/-- The bytes that pieces take, each with a slash. -/
def extent : (pieces : List String) → Nat
  | [] => 0
  | piece :: pieces => Text.byteLength piece.toList + 1 + extent pieces

theorem extent_append (a b : List String) : extent (a ++ b) = extent a + extent b := by
  induction a with
  | nil => simp [extent]
  | cons piece a ih =>
    simp only [List.cons_append, extent, ih]
    omega

/-- The bytes of a path. -/
def size (path : Path) : Nat := Text.byteLength path.text.toList

private theorem extent_fields (fields : List (List Char)) (nonempty : fields ≠ []) :
    extent (fields.map String.ofList) = Text.byteLength (Text.join ['/'] fields) + 1 := by
  induction fields with
  | nil => exact absurd rfl nonempty
  | cons field rest ih =>
    cases rest with
    | nil => simp [extent, Text.join]
    | cons next rest =>
      have slash : Text.byteLength ['/'] = 1 := by decide
      have ih := ih (by simp)
      rw [List.map_cons, extent, ih]
      simp only [Text.join, byte_length_append, String.toList_ofList, slash]
      omega

theorem extent_pieces (path : Path) : extent path.pieces = size path + 1 := by
  have whole := extent_fields _ (Text.split_ne_nil (· == '/') path.text.toList)
  rwa [Text.join_split] at whole

section Trails
variable {search : Search} {entry : Path} {most longest : Nat}

/-- Bounds on what is written by hand: the entry and the search roots, and the imports. -/
structure Bounded (search : Search) (entry : Path) (most longest : Nat) : Prop where
  entry : size entry ≤ most
  roots : ∀ root ∈ search.roots, size root ≤ most
  imports : ∀ location text directive, textAt? search.files location = some text →
    directive ∈ Import.scan text → size ⟨directive.path⟩ ≤ longest

end Trails

end ContractBuild.PathLengths
