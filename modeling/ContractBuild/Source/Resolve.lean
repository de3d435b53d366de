import ContractBuild.FileTree.Walk
import ContractBuild.Language
import ContractBuild.Source.Bundle
import ContractBuild.Source.Declaration
import ContractBuild.Source.Replace

/-! Resolution: everything an entry file imports, directly or not. Files are visited depth first,
each location once, so imports may form cycles. A file enters the bundle under the name of its
content when everything it imports has been visited. -/
namespace ContractBuild.Source

/-- Why an entry file does not resolve. -/
inductive ResolveError where
  /-- An import leads nowhere. -/
  | notFound (path : String) (importer : Path)
  | read (path : Path) (cause : FileError)
  /-- A source file is not UTF-8. -/
  | encoding (path : Path)
  /-- Files of one content import different files, so that one name cannot stand for both. -/
  | conflict (key : String) (first second : Path)
  deriving DecidableEq

namespace ResolveError

/-- The error as it is shown. -/
def message : ResolveError → String
  | notFound path importer => s!"import \"{path}\" in {importer.text} not found"
  | read path cause => s!"failed to read {path.text}: {cause.message}"
  | encoding path => s!"{path.text} is not valid UTF-8"
  | conflict key first second =>
    s!"{first.text} and {second.text} have identical content ({key}) but import different files"

end ResolveError

/-- Where sources are looked for. -/
structure Search where
  files : FileTree
  /-- The working directory. -/
  here : Location
  language : Language
  /-- The directories tried, in order, for an import that its importer's directory does not have. -/
  roots : List Path

namespace Search

/-- The file that an import leads to from the directory of its importer. A path that starts with a
step to the directory itself or to its parent is looked for nowhere else. -/
def locate? (search : Search) (directory : Path) (written : String) : Option Path :=
  let path : Path := ⟨written⟩
  let isFile (candidate : Path) := search.files.isFile search.here candidate
  if path.isAbsolute then if isFile path then some path else none
  else if isFile (directory.join path) then some (directory.join path)
  else if (Text.after? ['.', '/'] written.toList).isSome ∨
      (Text.after? ['.', '.', '/'] written.toList).isSome then none
  else (search.roots.map fun root => root.join path).find? isFile

end Search

/-- A walk through sources: what has been visited, and the bundle so far. -/
structure Walk where
  /-- The locations visited, each with the name of its content. -/
  visited : List (Location × String)
  /-- The path at which each content of the bundle was met first. -/
  origins : KeyMap Path
  includes : IncludeMap
  names : Names

namespace Walk

/-- The walk that has visited nothing. -/
def start : Walk := ⟨[], KeyMap.empty, KeyMap.empty, Names.empty⟩

/-- The name of the content of a visited location. -/
def keyOf? (walk : Walk) (location : Location) : Option String :=
  (walk.visited.find? fun entry => entry.1 = location).map Prod.snd

/-- The walk with one more location visited. -/
def visit (walk : Walk) (location : Location) (key : String) : Walk :=
  { walk with visited := (location, key) :: walk.visited }

/-- The walk with a file added to the bundle. -/
def add (walk : Walk) (key : String) (origin shown : Path) (file : IncludedFile) : Walk :=
  { walk with
    origins := walk.origins.insert key origin
    includes := walk.includes.insert key file
    names := walk.names.insert key shown }

/-- How many entries of a tree have not been visited. -/
def unvisited (files : FileTree) (walk : Walk) : Nat :=
  files.entries.countP fun entry => (walk.keyOf? entry.1).isNone

theorem unvisited_visit_lt {files : FileTree} {walk : Walk} {location : Location} {node : Node}
    (key : String) (there : files.get? location = some node) (inner : node ≠ .directory)
    (new : walk.keyOf? location = none) :
    (walk.visit location key).unvisited files < walk.unvisited files := by
  have listed : ∃ entry ∈ files.entries, entry.1 = location := by
    unfold FileTree.get? at there
    split at there
    · exact absurd (Option.some.inj there).symm inner
    · obtain ⟨entry, found, -⟩ := Option.map_eq_some_iff.mp there
      exact ⟨entry, List.mem_of_find?_eq_some found, by simpa using List.find?_some found⟩
  obtain ⟨entry, inside, same⟩ := listed
  have split : ∀ other : Location, (walk.visit location key).keyOf? other =
      if location = other then some key else walk.keyOf? other := by
    intro other
    by_cases hit : location = other <;> simp [keyOf?, visit, hit]
  unfold unvisited
  generalize files.entries = entries at inside
  induction entries with
  | nil => simp at inside
  | cons head rest ih =>
    simp only [List.countP_cons, split]
    have le : ∀ entries : List (Location × Node),
        entries.countP (fun entry => (if location = entry.1 then some key
          else walk.keyOf? entry.1).isNone) ≤
        entries.countP (fun entry => (walk.keyOf? entry.1).isNone) := by
      intro entries
      apply List.countP_mono_left
      intro entry _ unseen
      split at unseen <;> simp_all
    rcases List.mem_cons.mp inside with rfl | inside
    · have := le rest
      simp only [same, new]
      simp
      omega
    · have := ih inside
      simp only [split] at this
      by_cases hit : location = head.1
      · simp only [hit, if_true]
        simp only [← hit, new]
        simp
        omega
      · simp only [hit, if_false]
        omega

end Walk

/-- What a walk has found by going on from `walk`; no visited location is forgotten. -/
structure Onward (files : FileTree) (walk : Walk) (α : Type) where
  value : α
  reached : Walk
  grown : reached.unvisited files ≤ walk.unvisited files

/-- The path shown for a location: relative to the entry's directory if it is inside that. -/
def shownPath (root : Option Location) (location : Location) : Path :=
  match root.bind fun directory => directory.below? location with
  | some inner => Path.ofPieces inner
  | none => location.path

/-- What a call does: the paths that it reads, in order, how deep its calls are nested, and what it
answers. -/
structure Logged (α : Type) where
  reads : List Path
  depth : Nat
  outcome : Except ResolveError α

mutual

/-- Visits the file that a path leads to, and answers the name of its content. -/
def visitLogged (search : Search) (root : Option Location) (walk : Walk) (path : Path) :
    Logged (Onward search.files walk String) :=
  match _reached : search.files.lookup search.here path with
  | .error cause => ⟨[path], 1, .error (.read path cause)⟩
  | .ok (location, node) =>
    match _seen : walk.keyOf? location with
    | some key => ⟨[], 1, .ok ⟨key, walk, Nat.le_refl _⟩⟩
    | none =>
      match node with
      | .file content executable =>
        let key := (Digest.ofContent content).fileName search.language
        match Text.ofUtf8? content with
        | none => ⟨[path], 1, .error (.encoding path)⟩
        | some text =>
          have there := FileTree.get?_of_lookup _reached
          have fewer := Walk.unvisited_visit_lt key there (by simp) _seen
          let inner := visitImportsLogged search root (walk.visit location key) path
            (Import.scan text)
          ⟨path :: inner.reads, inner.depth + 1,
            match inner.outcome with
            | .error error => .error error
            | .ok ⟨replacements, after, grown⟩ =>
              let script := String.ofList (replaceSpans text replacements)
              match after.includes.get? key with
              | some present =>
                if present.script = script then .ok ⟨key, after, by omega⟩
                else .error (.conflict key ((after.origins.get? key).getD ⟨""⟩) path)
              | none =>
                .ok ⟨key, after.add key path (shownPath root location)
                  ⟨Declaration.scan text, script⟩, Nat.le_trans grown (Nat.le_of_lt fewer)⟩⟩
      | _ => ⟨[path], 1, .error (.read path .isDirectory)⟩
termination_by (walk.unvisited search.files, 0)
decreasing_by exact Prod.Lex.left _ _ fewer

/-- Visits what the imports of a file lead to, and answers the name to write in the place of
each. -/
def visitImportsLogged (search : Search) (root : Option Location) (walk : Walk) (importer : Path)
    (imports : List Import) : Logged (Onward search.files walk (List (Span × List Char))) :=
  match imports with
  | [] => ⟨[], 0, .ok ⟨[], walk, Nat.le_refl _⟩⟩
  | directive :: rest =>
    match search.locate? (importer.parent?.getD ⟨"."⟩) directive.path with
    | none => ⟨[], 0, .error (.notFound directive.path importer)⟩
    | some target =>
      let first := visitLogged search root walk target
      match first.outcome with
      | .error error => ⟨first.reads, first.depth, .error error⟩
      | .ok ⟨key, reached, grown⟩ =>
        let others := visitImportsLogged search root reached importer rest
        ⟨first.reads ++ others.reads, max first.depth others.depth,
          match others.outcome with
          | .error error => .error error
          | .ok ⟨replacements, after, grown'⟩ =>
            .ok ⟨(directive.span, key.toList) :: replacements, after, Nat.le_trans grown' grown⟩⟩
termination_by (walk.unvisited search.files, imports.length + 1)
decreasing_by
  · exact Prod.Lex.right _ (by simp)
  · rcases Nat.lt_or_eq_of_le grown with fewer | same
    · exact Prod.Lex.left _ _ fewer
    · rw [same]
      exact Prod.Lex.right _ (by simp)

end

/-- What the visit of a path answers. -/
def visit (search : Search) (root : Option Location) (walk : Walk) (path : Path) :
    Except ResolveError (Onward search.files walk String) :=
  (visitLogged search root walk path).outcome

/-- What the visits of what imports lead to answer. -/
def visitImports (search : Search) (root : Option Location) (walk : Walk) (importer : Path)
    (imports : List Import) :
    Except ResolveError (Onward search.files walk (List (Span × List Char))) :=
  (visitImportsLogged search root walk importer imports).outcome

/-- Resolves an entry file into a bundle. -/
def resolveLogged (search : Search) (entry : Path) : Logged Bundle :=
  let root := (search.files.canonical search.here entry.directory).toOption
  let visited := visitLogged search root Walk.start entry
  ⟨visited.reads, visited.depth,
    match visited.outcome with
    | .error error => .error error
    | .ok ⟨key, walk, _⟩ => .ok ⟨key, walk.includes, walk.names⟩⟩

/-- The bundle that an entry file resolves into. -/
def resolve (search : Search) (entry : Path) : Except ResolveError Bundle :=
  (resolveLogged search entry).outcome

theorem resolve_eq (search : Search) (entry : Path) : resolve search entry =
    match visit search (search.files.canonical search.here entry.directory).toOption Walk.start
      entry with
    | .error error => .error error
    | .ok ⟨key, walk, _⟩ => .ok ⟨key, walk.includes, walk.names⟩ := rfl

section Imports
variable {search : Search} {root : Option Location} {walk : Walk} {importer : Path}

theorem visit_imports_nil :
    visitImports search root walk importer [] = .ok ⟨[], walk, Nat.le_refl _⟩ := by
  rw [visitImports, visitImportsLogged]

/-- The visits of imports are decided by the visit of the first and, from there on, of the rest. -/
theorem visit_imports_cons {directive : Import} {rest : List Import} :
    visitImports search root walk importer (directive :: rest) =
      match search.locate? (importer.parent?.getD ⟨"."⟩) directive.path with
      | none => .error (.notFound directive.path importer)
      | some target =>
        match visit search root walk target with
        | .error error => .error error
        | .ok ⟨key, reached, grown⟩ =>
          match visitImports search root reached importer rest with
          | .error error => .error error
          | .ok ⟨replacements, after, grown'⟩ =>
            .ok ⟨(directive.span, key.toList) :: replacements, after, Nat.le_trans grown' grown⟩ := by
  rw [visitImports, visitImportsLogged]
  cases search.locate? (importer.parent?.getD ⟨"."⟩) directive.path with
  | none => rfl
  | some target =>
    dsimp only [visit]
    cases (visitLogged search root walk target).outcome <;> rfl

end Imports

end ContractBuild.Source
