import ContractBuild.Proofs.PathWalk
import ContractBuild.Project.ConfigText

/-! When the default configuration stands in for a configuration file: whenever the path of the file
leads to no regular file. A missing file is one case of it. A directory in its place, a loop of links and
everything else that keeps the system from finding a regular file are the others, and they are errors for
a reader of the file. -/
namespace ContractBuild.ConfigDefaults
open Config FileTree PathWalk

/-- The default configuration stands in for a missing file, and for nothing else. -/
structure ForMissingOnly (load loadOrDefault : Except ConfigError Config) : Prop where
  loaded : ∀ config, load = .ok config → loadOrDefault = .ok config
  missing : load = .error (.read .notFound) → loadOrDefault = .ok .default
  failed : ∀ error, load = .error error → error ≠ .read .notFound →
    ∃ error', loadOrDefault = .error error'

/-- What a system tells about the configuration file of a project. -/
structure Told where
  /-- Whether the path leads to a regular file. -/
  regular : Bool
  /-- What reading it as a text gives. -/
  text : Except FileError String

namespace Told

/-- The configuration that is read. -/
def load (told : Told) : Except ConfigError Config :=
  match told.text with
  | .ok text => ofText text
  | .error cause => .error (.read cause)

/-- The configuration that is read, or the default one. -/
def loadOrDefault (told : Told) : Except ConfigError Config :=
  if told.regular then told.load else .ok .default

/-- What the file tree of a workspace tells. -/
def ofWorkspace (w : Workspace) (project : Path) : Told :=
  ⟨w.isFile (Config.file project), w.readText (Config.file project)⟩

end Told

section Texts
variable {config : Config} {text : String} {fault : ConfigError} {cause : FileError}

/-- A fault of a configuration is no failure to read it. -/
theorem fault_unread (found : config.fault? = some fault) : fault ≠ .read cause := by
  have remote : ∀ remote : RemoteSettings, remoteFault? remote ≠ some (.read cause) := by
    intro remote
    unfold remoteFault?
    repeat' split
    all_goals simp
  have setting : ∀ setting : StripSetting, settingFault? setting ≠ some (.read cause) := by
    intro setting
    unfold settingFault?
    repeat' split
    all_goals simp
  rintro rfl
  unfold fault? at found
  repeat' split at found
  · simp at found
  · simp at found
  · simp at found
  · rcases Option.or_eq_some_iff.mp found with found | ⟨-, found⟩
    · obtain ⟨service, -, found⟩ := Option.bind_eq_some_iff.mp found
      exact remote service found
    · obtain ⟨rule, -, found⟩ := List.exists_of_findSome?_eq_some found
      exact setting rule found

/-- What a text states is no failure to read it either. -/
theorem of_text_unread : ofText text ≠ .error (.read cause) := by
  unfold ofText
  intro failed
  repeat' split at failed
  · simp at failed
  · simp at failed
  · rename_i found
    exact fault_unread found (Except.error.inj failed)
  · cases failed

end Texts

section Systems
variable {told : Told} {cause : FileError}

theorem load_unread : told.load = .error (.read cause) ↔ told.text = .error cause := by
  unfold Told.load
  cases told.text with
  | ok text => simp [of_text_unread]
  | error cause' => simp

/-- What the default configuration may stand in for: a missing file, and a text that states no more
than the default configuration does. -/
def Dispensable (text : Except FileError String) : Prop :=
  text = .error .notFound ∨ ∃ written, text = .ok written ∧ ofText written = .ok .default

/-- The default configuration stands in for a missing file only if a regular file is never missing and
everything that is no regular file is dispensable. -/
theorem for_missing_only_iff : ForMissingOnly told.load told.loadOrDefault ↔
    (told.regular = true → told.text ≠ .error .notFound) ∧
      (told.regular = false → Dispensable told.text) := by
  cases regular : told.regular with
  | true =>
    have same : told.loadOrDefault = told.load := by simp [Told.loadOrDefault, regular]
    rw [same]
    constructor
    · refine fun only => ⟨fun _ absent => ?_, by simp⟩
      have failed := load_unread.mpr absent
      exact absurd (failed.symm.trans (only.missing failed)) (by simp)
    · rintro ⟨present, -⟩
      exact ⟨fun _ read => read, fun failed => absurd (load_unread.mp failed) (present rfl),
        fun error failed _ => ⟨error, failed⟩⟩
  | false =>
    have same : told.loadOrDefault = .ok .default := by simp [Told.loadOrDefault, regular]
    rw [same]
    constructor
    · refine fun only => ⟨by simp, fun _ => ?_⟩
      cases loaded : told.load with
      | ok config =>
        obtain rfl := Except.ok.inj (only.loaded config loaded)
        cases read : told.text with
        | ok text => exact Or.inr ⟨text, rfl, by simpa [Told.load, read] using loaded⟩
        | error cause => simp [Told.load, read] at loaded
      | error error =>
        by_cases absent : error = .read .notFound
        · subst absent
          exact Or.inl (load_unread.mp loaded)
        · obtain ⟨error', failed⟩ := only.failed error loaded absent
          cases failed
    · rintro ⟨-, dispensable⟩
      rcases dispensable rfl with absent | ⟨written, read, states⟩
      · have failed := load_unread.mpr absent
        refine ⟨fun config loaded => ?_, fun _ => rfl, fun error failed' other => ?_⟩
        · exact absurd (failed.symm.trans loaded) (by simp)
        · exact absurd (Except.error.inj (failed'.symm.trans failed)) other
      · have loaded : told.load = .ok .default := by simpa [Told.load, read] using states
        refine ⟨fun config read => loaded.symm.trans read, fun _ => rfl, fun error failed _ => ?_⟩
        exact absurd (loaded.symm.trans failed) (by simp)

end Systems

section Workspaces
variable {w : Workspace} {project : Path}

theorem load_told (w : Workspace) (project : Path) :
    Config.load w project = (Told.ofWorkspace w project).load ∧
      Config.loadOrDefault w project = (Told.ofWorkspace w project).loadOrDefault := ⟨rfl, rfl⟩

/-- What a path leads to is a regular file, which is read unless it is no text, or something that
cannot be read. -/
theorem read_cases (w : Workspace) (path : Path) :
    (w.isFile path = true ∧ w.readText path ≠ .error .notFound) ∨
      w.isFile path = false ∧ ∃ cause, w.readText path = .error cause := by
  simp only [Workspace.isFile, Workspace.readText, FileTree.isFile, FileTree.readText, FileTree.read]
  rcases found : w.files.lookup w.here path with cause | ⟨location, _ | _ | _⟩
  · exact Or.inr ⟨rfl, cause, rfl⟩
  · rename_i content executable
    refine Or.inl ⟨rfl, ?_⟩
    simp only
    split
    · simp
    · simp
  · exact Or.inr ⟨rfl, .isDirectory, rfl⟩
  · exact Or.inr ⟨rfl, .isDirectory, rfl⟩

/-- In a file tree the default configuration stands in for a missing file only if the path of the
configuration file leads to a regular file or the file is reported missing. -/
theorem workspace_iff : ForMissingOnly (Config.load w project) (Config.loadOrDefault w project) ↔
    w.isFile (Config.file project) = true ∨ Config.load w project = .error (.read .notFound) := by
  obtain ⟨load, loadOrDefault⟩ := load_told w project
  rw [load, loadOrDefault, for_missing_only_iff, load_unread]
  rcases read_cases w (Config.file project) with ⟨regular, present⟩ | ⟨irregular, cause, unread⟩
  · simp [Told.ofWorkspace, regular, present]
  · simp [Told.ofWorkspace, irregular, unread, Dispensable]

/-- When the default configuration stands in for a missing file only, for every system that may be asked
and for file trees. Otherwise a file tree has the default configuration taken where reading the file
fails for another cause. -/
theorem defaults_for_missing_iff (told : Told) (w : Workspace) (project : Path) :
    (ForMissingOnly told.load told.loadOrDefault ↔
      (told.regular = true → told.text ≠ .error .notFound) ∧
        (told.regular = false → Dispensable told.text)) ∧
    (ForMissingOnly (Config.load w project) (Config.loadOrDefault w project) ↔
      w.isFile (Config.file project) = true ∨ Config.load w project = .error (.read .notFound)) ∧
    (ForMissingOnly (Config.load w project) (Config.loadOrDefault w project) ∨
      ∃ cause, cause ≠ .notFound ∧ Config.load w project = .error (.read cause) ∧
        Config.loadOrDefault w project = .ok .default) := by
  refine ⟨for_missing_only_iff, workspace_iff, ?_⟩
  rcases read_cases w (Config.file project) with ⟨regular, -⟩ | ⟨irregular, cause, unread⟩
  · exact Or.inl (workspace_iff.mpr (Or.inl regular))
  · have failed : Config.load w project = .error (.read cause) := by
      rw [(load_told w project).1]
      exact load_unread.mpr unread
    by_cases absent : cause = .notFound
    · subst absent
      exact Or.inl (workspace_iff.mpr (Or.inr failed))
    · exact Or.inr ⟨cause, absent, failed, if_neg (by simp [irregular])⟩

/-- A workspace with something in its working directory that is called like the configuration file. -/
def obstructed (node : Node) : Workspace := ⟨⟨[(["kiln.toml"], node)]⟩, [], 1, 0⟩

private theorem passed_over {cause : FileError} (other : cause ≠ .notFound)
    (irregular : w.isFile (Config.file project) = false)
    (unread : w.readText (Config.file project) = .error cause) :
    Config.load w project = .error (.read cause) ∧ Config.loadOrDefault w project = .ok .default ∧
      ¬ ForMissingOnly (Config.load w project) (Config.loadOrDefault w project) := by
  have failed : Config.load w project = .error (.read cause) := by
    rw [(load_told w project).1]
    exact load_unread.mpr unread
  refine ⟨failed, if_neg (by simp [irregular]), fun only => ?_⟩
  rcases workspace_iff.mp only with regular | absent
  · simp [irregular] at regular
  · rw [failed] at absent
    exact other (ConfigError.read.inj (Except.error.inj absent))

private theorem obstructed_lookup (node : Node) :
    (obstructed node).files.find true (obstructed node).here (Config.file ⟨"."⟩) =
      (obstructed node).files.walk true FileTree.maxLinks [] .directory ["kiln.toml"] := by
  rw [find_accepted (by decide)]
  exact walk_idle (by decide)

private theorem circle_walk (links : Nat) :
    (obstructed (.link ⟨"kiln.toml"⟩)).files.walk true links [] .directory ["kiln.toml"] =
      .error .tooManyLinks := by
  have name : IsName "kiln.toml" := by decide
  induction links with
  | zero => exact walk_link_spent name rfl (Or.inr rfl)
  | succ links ih =>
    rw [walk_link name rfl (Or.inr rfl)]
    exact ih

/-- A directory in the place of the configuration file is an error for a reader of the file, and so is a
link that leads to itself. Both projects are taken for ones that state nothing. -/
theorem directory_passed_over :
    (Config.load (obstructed .directory) ⟨"."⟩ = .error (.read .isDirectory) ∧
      Config.loadOrDefault (obstructed .directory) ⟨"."⟩ = .ok .default ∧
      ¬ ForMissingOnly (Config.load (obstructed .directory) ⟨"."⟩)
        (Config.loadOrDefault (obstructed .directory) ⟨"."⟩)) ∧
    Config.load (obstructed (.link ⟨"kiln.toml"⟩)) ⟨"."⟩ = .error (.read .tooManyLinks) ∧
      Config.loadOrDefault (obstructed (.link ⟨"kiln.toml"⟩)) ⟨"."⟩ = .ok .default ∧
      ¬ ForMissingOnly (Config.load (obstructed (.link ⟨"kiln.toml"⟩)) ⟨"."⟩)
        (Config.loadOrDefault (obstructed (.link ⟨"kiln.toml"⟩)) ⟨"."⟩) := by
  have name : IsName "kiln.toml" := by decide
  have taken : (obstructed .directory).files.find true (obstructed .directory).here
      (Config.file ⟨"."⟩) = .ok (.taken ["kiln.toml"] .directory) := by
    have there : (obstructed .directory).files.get? ["kiln.toml"] = some .directory := rfl
    rw [obstructed_lookup, walk_found name there (by simp), walk]
    rfl
  have circle : (obstructed (.link ⟨"kiln.toml"⟩)).files.find true
      (obstructed (.link ⟨"kiln.toml"⟩)).here (Config.file ⟨"."⟩) = .error .tooManyLinks := by
    rw [obstructed_lookup, circle_walk]
  constructor
  · refine passed_over (by simp) ?_ ?_
    · simp [Workspace.isFile, FileTree.isFile, lookup, taken]
    · simp [Workspace.readText, FileTree.readText, FileTree.read, lookup, taken]
  · refine passed_over (by simp) ?_ ?_
    · simp [Workspace.isFile, FileTree.isFile, lookup, circle]
    · simp [Workspace.readText, FileTree.readText, FileTree.read, lookup, circle]

end Workspaces

end ContractBuild.ConfigDefaults
