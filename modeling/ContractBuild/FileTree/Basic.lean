import ContractBuild.Bytes
import ContractBuild.Path

/-! A file tree as a value: which location holds a file, a directory or a symbolic link. -/
namespace ContractBuild

/-- A place in a file tree, as the names on the way from the root. -/
abbrev Location := List String

namespace Location

/-- The spelling of a location. -/
def path (location : Location) : Path := Path.rooted location

/-- Whether a location is a directory's own or inside it. -/
def isWithin (directory location : Location) : Bool := directory.isPrefixOf location

/-- The directories above a location, the root first. -/
def above (location : Location) : List Location := (List.range location.length).map location.take

/-- The names that lead from a directory to a location inside it. -/
def below? : (directory location : Location) → Option Location
  | [], location => some location
  | _ :: _, [] => none
  | d :: directory, l :: location => if d = l then below? directory location else none

theorem below?_eq_some_iff {directory location inner : Location} :
    below? directory location = some inner ↔ location = directory ++ inner := by
  induction directory generalizing location with
  | nil => simp [below?]
  | cons name directory ih =>
    cases location with
    | nil => simp [below?]
    | cons name' location =>
      by_cases same : name = name'
      · simp [below?, same, ih]
      · simp [below?, same, Ne.symm same]

end Location

/-- What a location holds. -/
inductive Node where
  | file (content : Bytes) (executable : Bool)
  | directory
  | link (target : Path)
  deriving DecidableEq, Inhabited

/-- The files, directories and links of a system. The root is a directory and is not listed. -/
structure FileTree where
  entries : List (Location × Node)

namespace FileTree

/-- The tree with nothing but its root. -/
def empty : FileTree := ⟨[]⟩

/-- What a location holds. -/
def get? (tree : FileTree) (location : Location) : Option Node :=
  if location = [] then some .directory
  else (tree.entries.find? fun entry => entry.1 = location).map Prod.snd

/-- The tree with a location holding something else. -/
def set (tree : FileTree) (location : Location) (node : Node) : FileTree :=
  ⟨(location, node) :: tree.entries.filter fun entry => entry.1 ≠ location⟩

/-- The tree without one location. -/
def erase (tree : FileTree) (location : Location) : FileTree :=
  ⟨tree.entries.filter fun entry => entry.1 ≠ location⟩

/-- The tree without a location and everything inside it. -/
def prune (tree : FileTree) (location : Location) : FileTree :=
  ⟨tree.entries.filter fun entry => !location.isWithin entry.1⟩

/-- The tree without anything inside a location. -/
def hollow (tree : FileTree) (location : Location) : FileTree :=
  ⟨tree.entries.filter fun entry => entry.1 = location || !location.isWithin entry.1⟩

/-- The names in a directory. -/
def children (tree : FileTree) (location : Location) : List String :=
  tree.entries.filterMap fun entry =>
    match location.below? entry.1 with
    | some [name] => some name
    | _ => none

theorem get?_set (tree : FileTree) (location other : Location) (node : Node)
    (inner : location ≠ []) :
    (tree.set location node).get? other =
      if other = location then some node else tree.get? other := by
  unfold get? set
  by_cases root : other = []
  · subst root
    simp [inner.symm]
  · by_cases same : other = location
    · simp [same, inner]
    · simp only [root, if_false, same]
      rw [List.find?_cons_of_neg (by simpa using Ne.symm same), List.find?_filter]
      congr 2
      funext entry
      by_cases hit : entry.1 = other <;> simp [hit, same]

theorem get?_erase (tree : FileTree) (location other : Location) (inner : location ≠ []) :
    (tree.erase location).get? other = if other = location then none else tree.get? other := by
  unfold get? erase
  by_cases root : other = []
  · subst root
    simp [inner.symm]
  · by_cases same : other = location
    · subst same
      simp [inner, List.find?_filter]
    · simp only [root, if_false, same, List.find?_filter]
      congr 2
      funext entry
      by_cases hit : entry.1 = other <;> simp [hit, same]

theorem get?_prune (tree : FileTree) (location other : Location) (inner : location ≠ []) :
    (tree.prune location).get? other =
      if location.isWithin other then none else tree.get? other := by
  unfold get? prune
  by_cases root : other = []
  · subst root
    cases location with
    | nil => exact absurd rfl inner
    | cons name rest => simp [Location.isWithin, List.isPrefixOf]
  · by_cases inside : location.isWithin other = true
    · simp only [root, if_false, inside, if_true, List.find?_filter, Option.map_eq_none_iff,
        List.find?_eq_none]
      intro entry _
      by_cases hit : entry.1 = other <;> simp [hit, inside]
    · simp only [root, if_false, inside, List.find?_filter]
      congr 2
      funext entry
      by_cases hit : entry.1 = other <;> simp [hit, inside]

theorem get?_hollow (tree : FileTree) (location other : Location) :
    (tree.hollow location).get? other =
      if other ≠ location ∧ location.isWithin other then none else tree.get? other := by
  unfold get? hollow
  by_cases root : other = []
  · subst root
    have outside : ¬ ([] ≠ location ∧ location.isWithin [] = true) := by
      cases location <;> simp [Location.isWithin, List.isPrefixOf]
    simp only [if_true, if_neg outside]
  · by_cases inside : other ≠ location ∧ location.isWithin other = true
    · simp only [root, if_false, if_pos inside, List.find?_filter, Option.map_eq_none_iff,
        List.find?_eq_none]
      intro entry _
      by_cases hit : entry.1 = other <;> simp [hit, inside]
    · simp only [root, if_false, if_neg inside, List.find?_filter]
      congr 2
      funext entry
      by_cases hit : entry.1 = other
      · by_cases own : other = location <;> simp_all
      · simp [hit]

/-- What a location is called in a directory, if it is an entry of it. -/
private theorem called_iff {directory location : Location} {name : String} :
    (match directory.below? location with
      | some [name] => some name
      | _ => none) = some name ↔ location = directory ++ [name] := by
  rw [← Location.below?_eq_some_iff]
  split
  · rename_i name' below
    simp [below]
  · rename_i other
    simpa using other name

/-- The names in a directory are those that something is there under. -/
theorem mem_children_iff (tree : FileTree) (directory : Location) (name : String) :
    name ∈ tree.children directory ↔ tree.get? (directory ++ [name]) ≠ none := by
  simp [children, called_iff, get?, List.find?_eq_none]

section Names
variable {tree : FileTree} {directory : Location}

theorem children_nodup_erase (nodup : (tree.children directory).Nodup) (location : Location) :
    ((tree.erase location).children directory).Nodup :=
  nodup.sublist (List.filter_sublist.filterMap _)

theorem children_nodup_set (nodup : (tree.children directory).Nodup) (location : Location)
    (node : Node) : ((tree.set location node).children directory).Nodup := by
  have erased := children_nodup_erase nodup location
  simp only [children, set, List.filterMap_cons]
  split
  · exact erased
  · rename_i name named
    refine List.nodup_cons.mpr ⟨fun inside => ?_, erased⟩
    have there := (mem_children_iff (tree.erase location) directory name).mp inside
    rw [called_iff.mp named, get?_erase _ _ _ (by simp), if_pos rfl] at there
    exact there rfl

end Names

end FileTree

end ContractBuild
