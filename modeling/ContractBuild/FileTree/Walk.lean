import ContractBuild.FileTree.Basic
import ContractBuild.FileTree.Error
import ContractBuild.Text.Utf8

/-! Where a path leads in a file tree. A path is followed piece by piece from the root or the
working directory; a symbolic link on the way is replaced by its target, at most forty times. -/
namespace ContractBuild.FileTree

/-- What a path comes to. -/
inductive Spot where
  /-- The location is there. -/
  | taken (location : Location) (node : Node)
  /-- Only the last name is missing; `slash` says whether a slash was written after it. -/
  | free (location : Location) (slash : Bool)

/-- Links that one path may pass. -/
def maxLinks : Nat := 40

/-- Bytes that one name may have. -/
def maxNameBytes : Nat := 255

/-- Bytes that one path may have. -/
def maxPathBytes : Nat := 4095

/-- Follows pieces from a location that is there. With `follow` unset, a link that the path ends in
is not replaced by its target. -/
def walk (tree : FileTree) (follow : Bool) (links : Nat) (at_ : Location) (node : Node)
    (pieces : List String) : Except FileError Spot :=
  match pieces with
  | [] => .ok (.taken at_ node)
  | piece :: rest =>
    if node ≠ .directory then .error .notDirectory
    else if Path.isIdle piece then walk tree follow links at_ node rest
    else if piece = ".." then walk tree follow links at_.dropLast .directory rest
    else if Text.byteLength piece.toList > maxNameBytes then .error .nameTooLong
    else
      let next := at_ ++ [piece]
      let final := rest.all (· = "")
      match tree.get? next with
      | none => if final then .ok (.free next !rest.isEmpty) else .error .notFound
      | some (.link target) =>
        if final ∧ ¬ follow then .ok (.taken next (.link target))
        else
          match links with
          | 0 => .error .tooManyLinks
          | links + 1 =>
            walk tree follow links (if target.isAbsolute then [] else at_) .directory
              (target.pieces ++ rest)
      | some found => walk tree follow links next found rest
termination_by (links, pieces.length)

/-- Where a path leads from a working directory. -/
def find (tree : FileTree) (follow : Bool) (here : Location) (path : Path) :
    Except FileError Spot :=
  if path.text.toList.contains '\x00' then .error .zeroInName
  else if path.text = "" then .error .notFound
  else if Text.byteLength path.text.toList > maxPathBytes then .error .nameTooLong
  else walk tree follow maxLinks (if path.isAbsolute then [] else here) .directory path.pieces

/-- The location a path leads to and what it holds, links followed to their ends. -/
def lookup (tree : FileTree) (here : Location) (path : Path) : Except FileError (Location × Node) :=
  match tree.find true here path with
  | .ok (.taken location node) => .ok (location, node)
  | .ok (.free ..) => .error .notFound
  | .error error => .error error

theorem walk_file {tree : FileTree} {follow : Bool} {links : Nat} {at_ location : Location}
    {node : Node} {pieces : List String} {content : Bytes} {executable : Bool}
    (start : node = .directory ∨ tree.get? at_ = some node)
    (found : tree.walk follow links at_ node pieces =
      .ok (.taken location (.file content executable))) :
    tree.get? location = some (.file content executable) := by
  fun_induction walk tree follow links at_ node pieces <;> simp_all

/-- A file that a path leads to is in the tree. -/
theorem get?_of_lookup {tree : FileTree} {here location : Location} {path : Path} {content : Bytes}
    {executable : Bool} (found : tree.lookup here path = .ok (location, .file content executable)) :
    tree.get? location = some (.file content executable) := by
  unfold lookup at found
  split at found
  · rename_i spot
    simp only [Except.ok.injEq, Prod.mk.injEq] at found
    obtain ⟨rfl, rfl⟩ := found
    unfold find at spot
    repeat' split at spot
    · simp at spot
    · simp at spot
    · simp at spot
    · exact walk_file (Or.inl rfl) spot
    · exact walk_file (Or.inl rfl) spot
  · simp at found
  · simp at found

/-- Whether a path leads to a regular file. -/
def isFile (tree : FileTree) (here : Location) (path : Path) : Bool :=
  match tree.lookup here path with
  | .ok (_, .file ..) => true
  | _ => false

/-- Whether a path leads to a directory. -/
def isDirectory (tree : FileTree) (here : Location) (path : Path) : Bool :=
  match tree.lookup here path with
  | .ok (_, .directory) => true
  | _ => false

/-- The location a path leads to. -/
def canonical (tree : FileTree) (here : Location) (path : Path) : Except FileError Location :=
  (tree.lookup here path).map Prod.fst

/-- The bytes of the file that a path leads to. -/
def read (tree : FileTree) (here : Location) (path : Path) : Except FileError Bytes :=
  match tree.lookup here path with
  | .ok (_, .file content _) => .ok content
  | .ok _ => .error .isDirectory
  | .error error => .error error

/-- The text of the file that a path leads to. -/
def readText (tree : FileTree) (here : Location) (path : Path) : Except FileError String :=
  match tree.read here path with
  | .ok content =>
    match Text.ofUtf8? content with
    | some text => .ok (String.ofList text)
    | none => .error .notText
  | .error error => .error error

end ContractBuild.FileTree
