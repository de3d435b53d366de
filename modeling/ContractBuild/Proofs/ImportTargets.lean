import ContractBuild.Proofs.PathPieces
import ContractBuild.Proofs.PathWalk
import ContractBuild.Source.Resolve

/-! What an import leads to, told by where the importing file lies and not by how its path is
written. In a tree without links the two agree as long as the system takes the written path. -/
namespace ContractBuild.ImportTargets
open FileTree PathPieces PathWalk Source

/-- The location of the regular file that a path leads to from a directory. -/
def fileFrom? (files : FileTree) (here : Location) (path : Path) : Option Location :=
  match files.lookup here path with
  | .ok (location, .file ..) => some location
  | _ => none

/-- Whether an import starts with a step to the importing file's directory or to its parent. -/
def startsWithStep (written : String) : Bool :=
  (Text.after? ['.', '/'] written.toList).isSome ||
    (Text.after? ['.', '.', '/'] written.toList).isSome

/-- The location that an import of the file at `importer` leads to: a file found from that file's
directory, or else from the first search root that has it, unless the import is absolute or starts
with a step. -/
def target? (search : Search) (importer : Location) (written : String) : Option Location :=
  (fileFrom? search.files importer.dropLast ⟨written⟩).or
    (if (Path.mk written).isAbsolute || startsWithStep written then none
      else search.roots.findSome? fun root =>
        fileFrom? search.files search.here (root.join ⟨written⟩))

/-- The path that joining an import to the directory of its importer writes. -/
def besidePath (importer : Path) (written : String) : Path :=
  (importer.parent?.getD ⟨"."⟩).join ⟨written⟩

section Lookup
variable {files : FileTree} {here location : Location} {path : Path}

theorem file_from_iff : fileFrom? files here path = some location ↔
    ∃ content executable, files.lookup here path = .ok (location, .file content executable) := by
  unfold fileFrom?
  split
  · rename_i found content executable shape
    simp [shape]
  · rename_i other
    constructor
    · intro found
      cases found
    · rintro ⟨content, executable, shape⟩
      exact absurd shape (other _ _ _)

theorem is_file_eq : files.isFile here path = (fileFrom? files here path).isSome := by
  unfold isFile fileFrom?
  split <;> simp_all

end Lookup

section Beside
variable {files : FileTree} {here location : Location} {importer path : Path}

/-- The parent that is written for a file leads to the directory in which the rest of the path, one
name with idle pieces around it, is read. -/
theorem parent_reached {parent : Path} {content : Bytes} {executable : Bool}
    (above : importer.parent? = some parent)
    (walked : walk files true maxLinks (if importer.isAbsolute then [] else here) .directory
      importer.pieces = .ok (.taken location (.file content executable))) :
    ∃ reached left inner last outer, (∀ piece ∈ inner, Path.isIdle piece = true) ∧
      (∀ piece ∈ outer, Path.isIdle piece = true) ∧
      walk files true left reached .directory (inner ++ last :: outer) =
        .ok (.taken location (.file content executable)) ∧
      ∀ rest, walk files true maxLinks (if parent.isAbsolute then [] else here) .directory
          (steps parent ++ rest) = walk files true left reached .directory rest := by
  obtain ⟨⟨inner, last, outer, pieces, visible, innerIdle, outerIdle⟩, absolute⟩ :=
    pieces_of_parent above
  rw [pieces, List.append_assoc, ← absolute] at walked
  rcases walk_append files maxLinks (if parent.isAbsolute then [] else here) .directory
    (steps parent) with ⟨reached, node, left, -, -, onward⟩ | ⟨-, fails⟩
  · rw [onward true _ (Or.inr rfl)] at walked
    have inside : node = .directory := by
      by_contra outside
      cases inner <;> simp [walk_outside outside] at walked
    subst inside
    exact ⟨reached, left, inner, last, outer, innerIdle, outerIdle, walked,
      fun rest => onward true rest (Or.inr rfl)⟩
  · obtain ⟨error, failed⟩ := fails true (inner ++ last :: outer) ⟨last, by simp, visible⟩
    rw [failed] at walked
    cases walked

/-- The parent that is written for a file leads to the directory that the file lies in. -/
private theorem parent_leads (linkless : Linkless files)
    (found : fileFrom? files here importer = some location) :
    ∃ parent, importer.parent? = some parent ∧ '\x00' ∉ parent.text.toList ∧
      ∀ rest, walk files true maxLinks (if parent.isAbsolute then [] else here) .directory
          (steps parent ++ rest) =
        walk files true maxLinks location.dropLast .directory rest := by
  obtain ⟨content, executable, looked⟩ := file_from_iff.mp found
  obtain ⟨⟨zero, -, -⟩, walked⟩ := lookup_ok_iff.mp looked
  cases above : importer.parent? with
  | none => simp [walk_idles (idle_of_no_parent above)] at walked
  | some parent =>
    refine ⟨parent, rfl, ?_, ?_⟩
    · obtain ⟨⟨inner, last, outer, pieces, -⟩, -⟩ := pieces_of_parent above
      intro inside
      obtain ⟨piece, among, held⟩ := (mem_text_iff (by decide)).mp inside
      refine zero ((mem_text_iff (by decide)).mpr ⟨piece, ?_, held⟩)
      rw [pieces]
      rcases pieces_eq_steps parent with own | own
      · rw [own] at among
        simp [among]
      · rw [own] at among
        rcases List.mem_append.mp among with among | empty
        · simp [among]
        · simp [List.mem_singleton.mp empty] at held
    · obtain ⟨reached, left, inner, last, outer, innerIdle, outerIdle, walked, onward⟩ :=
        parent_reached above walked
      obtain ⟨-, rfl⟩ := walk_to_file linkless innerIdle outerIdle walked
      intro rest
      rw [onward, List.dropLast_concat]
      exact walk_linkless linkless ..

private theorem byte_length_join (directory path : Path) :
    Text.byteLength path.text.toList ≤ Text.byteLength (directory.join path).text.toList := by
  unfold Path.join
  split
  · exact Nat.le_refl _
  · split
    · simp [byte_length_append]
    · rw [String.toList_append, byte_length_append]
      exact Nat.le_add_left ..

private theorem join_nonempty (directory : Path) (nonempty : path.text ≠ "") :
    (directory.join path).text ≠ "" := by
  have visible : path.text.toList ≠ [] := by simpa [String.toList_eq_nil_iff] using nonempty
  rw [Ne, ← String.toList_eq_nil_iff]
  unfold Path.join
  split
  · exact visible
  · split <;> simp [visible]

theorem lookup_absolute (absolute : path.isAbsolute = true) (there : Location) :
    files.lookup here path = files.lookup there path := by
  simp only [lookup, find, absolute, ↓reduceIte]

/-- In a tree without links, a path written after the parent of a file leads where it leads from the
directory that the file lies in, as long as the system takes the text. -/
theorem file_beside (path : Path) (linkless : Linkless files)
    (found : fileFrom? files here importer = some location)
    (short : Text.byteLength (besidePath importer path.text).text.toList ≤ maxPathBytes) :
    fileFrom? files here (besidePath importer path.text) =
      fileFrom? files location.dropLast path := by
  obtain ⟨parent, written, zero, onward⟩ := parent_leads linkless found
  simp only [besidePath, written, Option.getD_some] at short ⊢
  by_cases absolute : path.isAbsolute = true
  · simp only [Path.join, absolute, true_or, ↓reduceIte, fileFrom?,
      lookup_absolute absolute location.dropLast]
  have relative : path.isAbsolute = false := by simpa using absolute
  have pieces := pieces_join parent path relative
  have held : ∀ c, c ≠ '/' → (c ∈ (parent.join path).text.toList ↔
      (∃ piece ∈ steps parent, c ∈ piece.toList) ∨ c ∈ path.text.toList) := by
    intro c plain
    rw [mem_text_iff plain, mem_text_iff plain, pieces]
    simp only [List.mem_append, or_and_right, exists_or]
  ext target
  simp only [file_from_iff, lookup_ok_iff, pieces, absolute_join parent path relative, onward,
    relative, Bool.false_eq_true, ↓reduceIte]
  constructor
  · rintro ⟨content, executable, ⟨zero', -, -⟩, walked⟩
    refine ⟨content, executable, ⟨fun inside => zero' ((held _ (by decide)).mpr (Or.inr inside)), ?_,
      Nat.le_trans (byte_length_join parent path) short⟩, walked⟩
    intro empty
    simp [Path.pieces, empty, Text.split, walk_idle, Path.isIdle, walk] at walked
  · rintro ⟨content, executable, ⟨zero', nonempty, -⟩, walked⟩
    refine ⟨content, executable, ⟨?_, join_nonempty parent nonempty, short⟩, walked⟩
    intro inside
    rcases (held _ (by decide)).mp inside with ⟨piece, among, inside⟩ | inside
    · refine zero ((mem_text_iff (by decide)).mpr ⟨piece, ?_, inside⟩)
      rcases pieces_eq_steps parent with own | own <;> simp [own, among]
    · exact zero' inside

end Beside

section Locate
variable {search : Search} {location : Location} {importer directory path : Path} {written : String}

/-- What an import is found to lead to is a file. -/
theorem located_file (found : search.locate? directory written = some path) :
    ∃ location, fileFrom? search.files search.here path = some location := by
  rw [← Option.isSome_iff_exists, ← is_file_eq]
  simp only [Search.locate?] at found
  split at found
  · split at found
    · rename_i file
      cases found
      exact file
    · cases found
  · split at found
    · rename_i file
      cases found
      exact file
    · split at found
      · cases found
      · exact List.find?_some found

private theorem first_root (search : Search) (path : Path) (roots : List Path) :
    ((roots.map fun root => root.join path).find? fun candidate =>
        search.files.isFile search.here candidate).bind (fileFrom? search.files search.here) =
      roots.findSome? fun root => fileFrom? search.files search.here (root.join path) := by
  induction roots with
  | nil => rfl
  | cons root roots ih =>
    rw [List.map_cons, List.find?_cons, List.findSome?_cons, is_file_eq]
    cases file : fileFrom? search.files search.here (root.join path) with
    | none => exact ih
    | some location => simp [file]

/-- An import is looked for by where its importer lies, however the way there is written. -/
theorem target_eq_located (written : String) (linkless : Linkless search.files)
    (found : fileFrom? search.files search.here importer = some location)
    (short : Text.byteLength (besidePath importer written).text.toList ≤ maxPathBytes) :
    target? search location written =
      (search.locate? (importer.parent?.getD ⟨"."⟩) written).bind
        (fileFrom? search.files search.here) := by
  have beside := file_beside ⟨written⟩ linkless found short
  unfold target? Search.locate? startsWithStep
  rw [← beside]
  by_cases absolute : (Path.mk written).isAbsolute = true
  · have own : besidePath importer written = ⟨written⟩ := by
      simp [besidePath, Path.join, absolute]
    cases file : fileFrom? search.files search.here ⟨written⟩ <;>
      simp [own, absolute, is_file_eq, file]
  · simp only [absolute, Bool.false_eq_true, ↓reduceIte, is_file_eq, Bool.false_or,
      Bool.or_eq_true]
    cases file : fileFrom? search.files search.here (besidePath importer written) with
    | some there =>
      have file' := file
      unfold besidePath at file'
      simp [file']
    | none =>
      have file' := file
      unfold besidePath at file'
      simp only [file', Option.isSome_none, Bool.false_eq_true, ↓reduceIte, Option.none_or]
      split
      · rfl
      · simp only [← first_root, is_file_eq]

end Locate

end ContractBuild.ImportTargets
