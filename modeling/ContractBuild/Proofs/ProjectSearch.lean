import ContractBuild.CommandLine.Run
import ContractBuild.Proofs.CachePlace
import ContractBuild.Proofs.ImportTargets
import ContractBuild.Proofs.WrittenFiles
import Mathlib.Data.List.Induction

/-! The search for a project. From a directory below that of a project the search goes up a name at
a time, and the first configuration file on the way is the project's, if none is nearer. -/
namespace ContractBuild.ProjectSearch
open CachePlace FileTree ImportTargets PathPieces WrittenFiles

variable {files after : FileTree} {project directory location inner : Location} {config : Config}
  {name : String} {path : Path}

section Locations

theorem settle_plain (plain : ∀ name ∈ location, Plain name) : Path.settle location = location := by
  rcases List.eq_nil_or_concat' location with rfl | ⟨front, last, rfl⟩
  · rfl
  · exact settle_concat (plain last (by simp)).busy front

theorem absolute_location (location : Location) : location.path.isAbsolute = true := by
  simp [Location.path, Path.rooted, Path.isAbsolute, String.toList_append]

/-- The way to a location is spelled by its names. -/
theorem pieces_of_location (plain : ∀ name ∈ location, Plain name) :
    location.path.pieces = "" :: if location = [] then [""] else location :=
  pieces_rooted fun name inside => (plain name inside).whole

/-- One directory up from a location is the location without its last name. -/
theorem parent_of_location (plain : ∀ other ∈ location ++ [name], Plain other) :
    (Location.path (location ++ [name])).parent? = some location.path := by
  have above : ∀ other ∈ location, Plain other :=
    fun other inside => plain other (List.mem_append_left _ inside)
  have shape := pieces_of_location plain
  rw [if_neg (by simp)] at shape
  simp only [Path.parent?, shape, settle_plain plain, List.append_eq_nil_iff, List.cons_ne_self,
    and_false, if_false, if_true, List.dropLast_concat, settle_plain above]
  rfl

end Locations

section Reading

/-- Where a path starts does not matter if it is absolute. -/
theorem read_text_absolute (absolute : path.isAbsolute = true) (here there : Location) :
    files.readText here path = files.readText there path := by
  simp only [readText, FileTree.read, lookup_absolute absolute there]

theorem is_file_absolute (absolute : path.isAbsolute = true) (here there : Location) :
    files.isFile here path = files.isFile there path := by
  simp only [isFile, lookup_absolute absolute there]

/-- A text that is read is that of a file. -/
theorem file_of_text {here : Location} {text : String}
    (read : files.readText here path = .ok text) :
    ∃ place content executable, files.lookup here path = .ok (place, .file content executable) ∧
      Text.ofUtf8? content = some text.toList := by
  unfold readText at read
  split at read
  · rename_i content held
    unfold FileTree.read at held
    split at held
    · rename_i place content' executable looked
      obtain rfl := Except.ok.inj held
      split at read
      · rename_i text' decoded
        obtain rfl := Except.ok.inj read
        exact ⟨place, content', executable, looked, by simpa using decoded⟩
      · cases read
    · cases held
    · cases held
  · cases read

theorem text_of_file {here place : Location} {content : Bytes} {executable : Bool} {text : String}
    (looked : files.lookup here path = .ok (place, .file content executable))
    (decoded : Text.ofUtf8? content = some text.toList) : files.readText here path = .ok text := by
  simp only [readText, FileTree.read, looked, decoded, String.ofList_toList]

theorem absolute_file (location : Location) :
    (Config.file location.path).isAbsolute = true := by
  rw [Config.file, absolute_join _ _ (by decide), absolute_location]

end Reading

section Search

/-- A directory has a configuration file, and this is valid. -/
structure ProjectAt (files : FileTree) (project : Location) (config : Config) : Prop where
  plain : ∀ name ∈ project, Plain name
  loaded : ∃ text, files.readText [] (Config.file project.path) = .ok text ∧
    Config.ofText text = .ok config

/-- A directory is that of a project or below it, and there is no other configuration file on the
way up from there. -/
def InProject (files : FileTree) (project directory : Location) : Prop :=
  ∃ inner, directory = project ++ inner ∧ (∀ name ∈ inner, Plain name) ∧
    ∀ above, above ≠ [] → above <+: inner →
      files.isFile [] (Config.file (Location.path (project ++ above))) = false

/-- A project is still the same while nothing that was there is lost. -/
theorem project_later (at_ : ProjectAt files project config)
    (kept : ∀ location node, files.get? location = some node → after.get? location = some node) :
    ProjectAt after project config := by
  obtain ⟨plain, text, read, valid⟩ := at_
  obtain ⟨place, content, executable, looked, decoded⟩ := file_of_text read
  have there := get?_of_lookup looked
  have looked := file_later (keeps_ways_of_kept kept) looked ((kept _ _ there).trans there.symm)
  exact ⟨plain, text, text_of_file looked decoded, valid⟩

/-- The search comes to the configuration file of the project. -/
private theorem root_found {w : Workspace} (plain : ∀ name ∈ project ++ inner, Plain name)
    (there : w.isFile (Config.file project.path) = true)
    (nearer : ∀ above, above ≠ [] → above <+: inner →
      w.isFile (Config.file (Location.path (project ++ above))) = false) :
    Project.root? w (Location.path (project ++ inner)) = some project.path := by
  induction inner using List.reverseRecOn with
  | nil => rw [List.append_nil, Project.root?, if_pos there]
  | append_singleton inner name ih =>
    rw [Project.root?, if_neg (by simp [nearer _ (by simp) List.prefix_rfl])]
    rw [← List.append_assoc] at plain ⊢
    have above := parent_of_location plain
    split
    · rename_i parent found
      obtain rfl := Option.some.inj (above.symm.trans found)
      exact ih (fun other inside => plain other (List.mem_append_left _ inside))
        fun above nonempty before => nearer above nonempty (before.trans (List.prefix_append ..))
    · rename_i missing
      cases above.symm.trans missing

/-- Every command that is run in a project works on the project. -/
theorem project_found (at_ : ProjectAt files project config)
    (inside : InProject files project directory) {globals : CommandLine.Globals}
    (unnamed : globals.config = none) (process issued : Nat) :
    CommandLine.project ⟨files, directory, process, issued⟩ globals =
      .ok ⟨project.path, config⟩ := by
  obtain ⟨plain, text, read, valid⟩ := at_
  obtain ⟨inner, rfl, plain', nearer⟩ := inside
  obtain ⟨place, content, executable, looked, -⟩ := file_of_text read
  generalize shape : (⟨files, project ++ inner, process, issued⟩ : Workspace) = w
  have own : w.files = files ∧ w.here = project ++ inner := by
    rw [← shape]
    exact ⟨rfl, rfl⟩
  have asked : ∀ location : Location, w.isFile (Config.file location.path) =
      files.isFile [] (Config.file location.path) := by
    intro location
    rw [Workspace.isFile, own.1, is_file_absolute (absolute_file location) w.here []]
  have there : w.isFile (Config.file project.path) = true := by
    rw [asked, isFile, looked]
  have root : Project.root? w w.here.path = some project.path := by
    rw [own.2]
    refine root_found (fun name inside => ?_) there fun above nonempty before => ?_
    · exact (List.mem_append.mp inside).elim (plain name) (plain' name)
    · rw [asked, nearer above nonempty before]
  have loaded : Config.loadOrDefault w project.path = .ok config := by
    have text' : w.readText (Config.file project.path) = .ok text := by
      rw [Workspace.readText, own.1, read_text_absolute (absolute_file project) w.here [], read]
    simp only [Config.loadOrDefault, there, if_true, Config.load, Config.loadFile, text', valid]
  simp only [CommandLine.project, unnamed, Project.current, root, Option.getD_some, loaded]

end Search

end ContractBuild.ProjectSearch
