import ContractBuild.Proofs.ProjectSearch
import ContractBuild.Proofs.ScratchUse

/-! Cleaning a project. Runs that compile in a project, from whatever directory in it, work on one
scratch root; cleaning, from whatever directory, counts the requests that sources were written for
and takes away all that the runs have left, except directories above the root. -/
namespace ContractBuild.CleanedProject
open ByteForms CacheRoom CacheTransparency CompileSteps FileTree PathWalk ProjectSearch ScratchUse
open OpenWays SourcesSpared WrittenFiles

section Runs

/-- A run of the program that compiles an entry file. -/
structure CompileRun where
  /-- The working directory. -/
  directory : Location
  process : Nat
  globals : CommandLine.Globals
  entry : String
  options : Options
  format : CommandLine.Format

/-- The pipeline that a command opens in its project, and the workspace as it is then. -/
def opened? (host : Host) (globals : CommandLine.Globals) (w : Workspace) :
    Option (Pipeline Unit × Workspace) :=
  match CommandLine.project w globals with
  | .error _ => none
  | .ok project =>
    let (version, w) := CommandLine.installedVersion host project w
    some (CommandLine.pipeline host project version, w)

namespace CompileRun

/-- What a run starts with. -/
def start (run : CompileRun) (files : FileTree) : Workspace :=
  ⟨files, run.directory, run.process, 0⟩

/-- The files that a run leaves. -/
def leaves (run : CompileRun) (host : Host) (files : FileTree) : FileTree :=
  (CommandLine.perform host (.run run.globals (.compile run.entry run.options run.format))
    (run.start files)).2.files

/-- The digest of the request that a run gets as far as writing sources for. -/
def reached? (run : CompileRun) (host : Host) (files : FileTree) : Option Digest :=
  (opened? host run.globals (run.start files)).bind fun (pipeline, w) =>
    sourcesFor? pipeline w ⟨run.entry⟩ run.options

end CompileRun

/-- Runs in a project one after the other: the files that they leave, and the digests of the
requests that they got as far as writing sources for. -/
inductive Session (host : Host) (project : Location) (start : FileTree) :
    FileTree → List Digest → Prop where
  | idle : Session host project start start []
  | compile {files : FileTree} {digests : List Digest}
      (before : Session host project start files digests)
      (run : CompileRun) (inside : InProject files project run.directory)
      (unnamed : run.globals.config = none) :
      Session host project start (run.leaves host files)
        (digests ++ (run.reached? host files).toList)

end Runs

section Opening
variable {host : Host} {project directory : Location} {config : Config} {start files : FileTree}
  {digests : List Digest} {place : Location} {globals : CommandLine.Globals}

/-- A program that writes nothing is asked for its version without any effect. -/
theorem version_still (still : ∀ call w, (host.run call w).2 = w) (project : Project)
    (w : Workspace) : (CommandLine.installedVersion host project w).2 = w := by
  have asked : ∀ compiler : InstalledCompiler, compiler.run = host.run →
      leftBy (compiler.version w) = w := by
    intro compiler own
    have ran := still ⟨compiler.binary, ["--version"], none, compiler.timeout⟩ w
    have executed : leftBy (compiler.execute none ["--version"] w) = w := by
      unfold InstalledCompiler.execute
      rw [own]
      cases done : host.run ⟨compiler.binary, ["--version"], none, compiler.timeout⟩ w with
      | mk outcome after =>
        rw [done] at ran
        obtain rfl : after = w := ran
        rcases outcome with _ | _ | cause
        · rfl
        · rfl
        · cases cause <;> rfl
    unfold InstalledCompiler.version
    cases done : compiler.execute none ["--version"] w with
    | ok answer after =>
      rw [done] at executed
      obtain rfl : after = w := executed
      rw [bind_of_ok done]
      dsimp only
      split <;> rfl
    | error error after =>
      rw [done] at executed
      rw [bind_of_error done]
      exact executed
  unfold CommandLine.installedVersion
  split
  · have left := asked (Pipeline.installedCompiler host project.config project.directory) rfl
    split <;> rename_i done <;> rw [done] at left <;> exact left
  · rfl

/-- A project that names no service compiles with the installed compiler alone, in its own scratch
root. -/
theorem pipeline_of_local (unserved : config.remote = none) (directory : Path)
    (version : Option String) :
    (CommandLine.pipeline host ⟨directory, config⟩ version).cache =
        ⟨config.scratchRoot directory⟩ ∧
      (CommandLine.pipeline host ⟨directory, config⟩ version).primary =
        (Pipeline.installedCompiler host config directory).toCompiler ∧
      (CommandLine.pipeline host ⟨directory, config⟩ version).fallback = none := by
  cases version <;>
    simp [CommandLine.pipeline, Pipeline.ofConfig, Pipeline.withAssumedVersion, unserved]

/-- From everywhere in a project the same pipeline is opened, but for what the compiler says of its
version. -/
theorem opened_in_project (still : ∀ call w, (host.run call w).2 = w)
    (at_ : ProjectAt files project config) (inside : InProject files project directory)
    (unnamed : globals.config = none) (process issued : Nat) :
    ∃ version, opened? host globals ⟨files, directory, process, issued⟩ =
      some (CommandLine.pipeline host ⟨project.path, config⟩ version,
        ⟨files, directory, process, issued⟩) := by
  have found := project_found at_ inside unnamed process issued
  have same := version_still still ⟨project.path, config⟩ ⟨files, directory, process, issued⟩
  cases asked : CommandLine.installedVersion host ⟨project.path, config⟩
    ⟨files, directory, process, issued⟩ with
  | mk version after =>
    rw [asked] at same
    obtain rfl : after = _ := same
    exact ⟨version, by simp only [opened?, found, asked]⟩

/-- A run leaves what the compilation of its pipeline leaves. -/
theorem leaves_of_opened {run : CompileRun} {pipeline : Pipeline Unit} {w : Workspace}
    (opened : opened? host run.globals (run.start files) = some (pipeline, w)) :
    run.leaves host files =
      (worldOf (pipeline.compile ⟨run.entry⟩ run.options ⟨w, ()⟩)).workspace.files := by
  cases found : CommandLine.project (run.start files) run.globals with
  | error error => simp [opened?, found] at opened
  | ok project =>
    cases asked : CommandLine.installedVersion host project (run.start files) with
    | mk version after =>
      simp only [opened?, found, asked, Option.some.injEq, Prod.mk.injEq] at opened
      obtain ⟨rfl, rfl⟩ := opened
      simp only [CompileRun.leaves, CommandLine.perform, CommandLine.compile, found, asked]
      generalize (CommandLine.pipeline host project version).compile ⟨run.entry⟩ run.options
        ⟨after, ()⟩ = result
      cases result <;> rfl

end Opening

section Cleaning

/-- How cleaning ends that has removed the directories of some requests. -/
def cleaned (globals : CommandLine.Globals) (count : Nat) (root : Path) : CommandLine.Outcome :=
  ⟨0, "", CommandLine.note globals
    s!"   Removed {count} cached request(s) from {root.text}\n"⟩

variable {host : Host} {project directory : Location} {config : Config} {start files : FileTree}
  {digests : List Digest} {place : Location} {globals : CommandLine.Globals}

/-- Each run in a project adds what it writes to what the runs before it have written. -/
theorem used_of_session (still : ∀ call w, (host.run call w).2 = w)
    (at_ : ProjectAt start project config) (unserved : config.remote = none)
    (vacant : Vacant start (config.scratchRoot project.path) place)
    (session : Session host project start files digests) :
    Used (config.scratchRoot project.path) place start digests files := by
  induction session with
  | idle => exact used_at_start vacant
  | @compile files digests before run inside unnamed ih =>
    have at_ := project_later at_ (kept_of_works vacant ih.works)
    obtain ⟨version, opened⟩ := opened_in_project still at_ inside unnamed run.process 0
    obtain ⟨own, first, alone⟩ := @pipeline_of_local host _ unserved project.path version
    have used := @compile_used _ _ _ (run.start files) _ _ _ _ ⟨run.entry⟩ run.options () vacant ih
      own rfl first alone still
    have opened : opened? host run.globals (run.start files) = some (_, run.start files) := opened
    rw [leaves_of_opened opened, CompileRun.reached?, opened]
    exact used

/-- Cleaning a project, from any directory in it, undoes what runs in it have done, if its scratch
root was missing before them and can be made. It counts the requests that sources were written for
and removes the root, and nothing outside of it changes. So all is again as it was before the first
run, but for directories above the root that were made to hold it; and no run that follows finds a
result for any request. -/
theorem clean_undoes_compiles (still : ∀ call w, (host.run call w).2 = w)
    (at_ : ProjectAt start project config) (unserved : config.remote = none)
    (vacant : Vacant start (config.scratchRoot project.path) place)
    (session : Session host project start files digests)
    (inside : InProject files project directory) (unnamed : globals.config = none)
    (process issued : Nat) :
    ∃ after, CommandLine.perform host (.run globals .clean) ⟨files, directory, process, issued⟩ =
        (cleaned globals digests.toFinset.card (config.scratchRoot project.path),
          ⟨after, directory, process, issued⟩) ∧
      (∀ here, after.lookup here (config.scratchRoot project.path) = .error .notFound) ∧
      (∀ location, after.get? location = if place <+: location then none else files.get? location) ∧
      (∀ location, after.get? location = start.get? location ∨ start.get? location = none ∧
        after.get? location = some .directory ∧ location <+: place ∧ location ≠ place) ∧
      ∀ run : CompileRun, InProject after project run.directory → run.globals.config = none →
        ∃ pipeline, opened? host run.globals (run.start after) = some (pipeline, run.start after) ∧
          ∀ request, pipeline.cached? (run.start after) request = none := by
  have used := used_of_session still at_ unserved vacant session
  have now := project_later at_ (kept_of_works vacant used.works)
  have found := project_found now inside unnamed process issued
  obtain ⟨after, removed, cleared⟩ :=
    @clear_used _ _ _ ⟨files, directory, process, issued⟩ _ vacant used
  have vacant' := vacant_of_cleared vacant used cleared
  refine ⟨after, ?_, vacant_not_found vacant', cleared, restored_of_cleared vacant used cleared,
    fun run within unnamed' => ?_⟩
  · simp only [CommandLine.perform, CommandLine.clean, found, removed]
    rfl
  · have later := project_later at_ (kept_of_cleared vacant used cleared)
    obtain ⟨version, opened⟩ := opened_in_project still later within unnamed' run.process 0
    have own := (@pipeline_of_local host _ unserved project.path version).1
    exact ⟨_, opened, @vacant_not_cached _ _ (run.start after) _ _ own vacant'⟩

/-- A host with no programs and no network. -/
def bareHost : Host := ⟨fun _ w => (.notStarted .notFound, w), Network.unreachable⟩

/-- A configuration file at the root is found. -/
private theorem top_found {content : Bytes}
    (there : files.get? [Config.fileName] = some (.file content false)) :
    files.lookup [] (Config.file (Location.path [])) =
      .ok ([Config.fileName], .file content false) := by
  refine lookup_ok_iff.mpr ⟨by decide, ?_⟩
  rw [show (Config.file (Location.path [])).pieces = ["", Config.fileName] by decide, ite_self,
    walk_idle (by decide)]
  exact (walk_found (by decide) there (by simp)).trans (by rw [walk]; rfl)

/-- A project that states nothing, with an empty source file and another one in a directory. -/
def smallProject : FileTree :=
  ⟨[([Config.fileName], .file [] false), (["M.sol"], .file [] false), (["lib"], .directory),
    (["lib", "N.sol"], .file [] false)]⟩

/-- A run that compiles the first source file. -/
def outerRun : CompileRun := ⟨[], 1, ⟨false, false, none⟩, "M.sol", ⟨"", false⟩, .text⟩

/-- A run in the directory that compiles the other one, and has it optimized. -/
def innerRun : CompileRun := ⟨["lib"], 2, ⟨false, false, none⟩, "N.sol", ⟨"", true⟩, .text⟩

/-- The request of the second run. -/
def optimizedRequest : Request := { emptyRequest with optimize := true }

private theorem small_project_at : ProjectAt smallProject [] Config.default :=
  ⟨by simp, "", text_of_file (top_found rfl) (by decide), by decide +kernel⟩

private theorem inside_top (files : FileTree) : InProject files [] [] :=
  ⟨[], rfl, by simp, fun above nonempty before => absurd (List.prefix_nil.mp before) nonempty⟩

/-- A name of the root that is a directory or free leads down. -/
private theorem leads_down {name : String} (isName : IsName name)
    (open_ : ∀ node, files.get? ([] ++ [name]) = some node → node = .directory) :
    Leads files [name] [name] :=
  ⟨[], [name], [], rfl, by rw [walk], .name isName open_ (.here _)⟩

private theorem small_vacant :
    Vacant smallProject (Config.default.scratchRoot (Location.path [])) [".kiln", "scratch"] := by
  have free : ∀ location, [".kiln"] <+: location → smallProject.get? location = none := by
    rintro location ⟨rest, rfl⟩
    simp [smallProject, get?, Config.fileName]
  have open_ : ∀ node, smallProject.get? ([] ++ [".kiln"]) = some node → node = .directory := by
    intro node there
    cases (free [".kiln"] List.prefix_rfl).symm.trans there
  have leads : Leads smallProject [".kiln"] [".kiln"] := leads_down (by decide) open_
  exact ⟨by decide,
    ⟨[".kiln"], [".kiln"], "scratch", [], by decide, by simp, by decide, leads, rfl⟩,
    fun location within => free location (List.IsPrefix.trans ⟨["scratch"], rfl⟩ within)⟩

section Used
variable {files : FileTree} {digests : List Digest}
  (used : Used (Config.default.scratchRoot (Location.path [])) [".kiln", "scratch"] smallProject
    digests files)
include used

/-- No configuration file comes to be in the directory. -/
private theorem inside_lib : InProject files [] ["lib"] := by
  refine ⟨["lib"], rfl, by simpa using (by decide : CachePlace.Plain "lib"),
    fun above nonempty before => ?_⟩
  obtain rfl : above = ["lib"] := by
    rcases List.prefix_cons_iff.mp before with rfl | ⟨rest, rfl, empty⟩
    · exact absurd rfl nonempty
    · rw [List.prefix_nil.mp empty]
  have lib : files.get? ["lib"] = some .directory :=
    kept_of_works small_vacant used.works _ _ rfl
  have absent : files.get? (["lib"] ++ [Config.fileName]) = none := by
    rcases used.works.elsewhere ["lib", Config.fileName] (by simp) with same | ⟨-, -, on⟩
    · exact same
    · simp at on
  have directory : ∀ node, files.get? ([] ++ ["lib"]) = some node → node = .directory :=
    fun node there => (Option.some.inj (lib.symm.trans there)).symm
  have leads : Leads files ["lib"] ["lib"] := leads_down (by decide) directory
  have missing : files.lookup [] (Config.file (Location.path ["lib"])) = .error .notFound :=
    lookup_free (by decide) (show _ = "" :: (["lib"] ++ Config.fileName :: []) by decide) (by decide)
      leads absent []
  simp only [List.nil_append, isFile, missing]

/-- A run gets as far as writing the source for a program that is not there. -/
private theorem run_reached (run : CompileRun) (inside : InProject files [] run.directory)
    (unnamed : run.globals.config = none) (unlinked : run.options.libraries = "")
    (named : run.entry = "M.sol" ∨ run.entry = "N.sol")
    (there : smallProject.get? (run.directory ++ [run.entry]) = some (.file [] false))
    (new : Request.digest { emptyRequest with optimize := run.options.optimize } ∉ digests) :
    run.reached? bareHost files =
      some (Request.digest { emptyRequest with optimize := run.options.optimize }) := by
  have still : ∀ call w, (bareHost.run call w).2 = w := fun _ _ => rfl
  have kept := kept_of_works small_vacant used.works
  obtain ⟨version, opened⟩ : ∃ version, opened? bareHost run.globals (run.start files) =
      some (CommandLine.pipeline bareHost ⟨Location.path [], .default⟩ version, run.start files) :=
    opened_in_project still (project_later small_project_at kept) inside unnamed run.process 0
  obtain ⟨own, -, -⟩ := @pipeline_of_local bareHost Config.default rfl (Location.path []) version
  have rootless :
      (CommandLine.pipeline bareHost ⟨Location.path [], .default⟩ version).roots = [] := by
    cases version <;> rfl
  have made : (CommandLine.pipeline bareHost ⟨Location.path [], .default⟩ version).prepared
      (run.start files) ⟨run.entry⟩ run.options =
        .ok ⟨{ emptyRequest with optimize := run.options.optimize },
          Source.Names.empty.insert emptyName ⟨run.entry⟩⟩ := by
    rw [show run.options = ⟨"", run.options.optimize⟩ by rw [← unlinked]]
    have there : (run.start files).files.get? ((run.start files).here ++ [run.entry]) = _ :=
      kept _ _ there
    rcases named with named | named <;>
    · rw [named] at there ⊢
      exact prepared_empty _ rootless there (by decide) (by decide)
  have missed := @unused_not_cached _ _ _ (run.start files) _ small_vacant used _ _ own
    { emptyRequest with optimize := run.options.optimize } new
  have roomy : Roomy (Config.default.scratchRoot (Location.path [])) := by decide
  obtain ⟨made', done, -⟩ := @makes_sources _ _ _ (run.start files)
    (Request.digest { emptyRequest with optimize := run.options.optimize }) _ small_vacant used
    (@file_accepted ⟨_⟩ roomy _ _ sources_fit)
  rw [CompileRun.reached?, opened, Option.bind_some]
  simp only [sourcesFor?, made, missed, Option.isSome_none, Bool.false_eq_true, if_false, own, done]

end Used

/-- Two runs from different directories, for neither of which there was a program, have written the
sources of two requests. Cleaning, from the inner directory, removes both. -/
theorem clean_undoes_two_compiles :
    emptyRequest.digest ≠ optimizedRequest.digest ∧ ∃ files after,
      Session bareHost [] smallProject files [emptyRequest.digest, optimizedRequest.digest] ∧
      CommandLine.perform bareHost (.run ⟨false, false, none⟩ .clean) ⟨files, ["lib"], 3, 0⟩ =
        (⟨0, "", "   Removed 2 cached request(s) from /.kiln/scratch\n"⟩,
          ⟨after, ["lib"], 3, 0⟩) ∧
      after.lookup [] ⟨"/.kiln/scratch"⟩ = .error .notFound := by
  have different : emptyRequest.digest ≠ optimizedRequest.digest := by decide +kernel
  have still : ∀ call w, (bareHost.run call w).2 = w := fun _ _ => rfl
  have usedBy {files : FileTree} {digests : List Digest}
      (session : Session bareHost [] smallProject files digests) :=
    used_of_session still small_project_at rfl small_vacant session
  have first : Session bareHost [] smallProject (outerRun.leaves bareHost smallProject) _ :=
    .compile .idle outerRun (inside_top _) rfl
  rw [run_reached (usedBy .idle) outerRun (inside_top _) rfl rfl (Or.inl rfl) rfl (by simp)] at first
  have second : Session bareHost [] smallProject (innerRun.leaves bareHost _) _ :=
    .compile first innerRun (inside_lib (usedBy first)) rfl
  rw [run_reached (usedBy first) innerRun (inside_lib (usedBy first)) rfl rfl (Or.inr rfl) rfl
    (show optimizedRequest.digest ∉ [emptyRequest.digest] by simpa using different.symm)] at second
  obtain ⟨after, outcome, gone, -⟩ :=
    @clean_undoes_compiles bareHost [] ["lib"] .default smallProject _ _ _ ⟨false, false, none⟩
      still small_project_at rfl small_vacant second (inside_lib (usedBy second)) rfl 3 0
  have two : [emptyRequest.digest, optimizedRequest.digest].toFinset.card = 2 :=
    List.toFinset_card_of_nodup (by simpa using different)
  refine ⟨different, _, after, second, outcome.trans ?_, gone []⟩
  change (cleaned _ [emptyRequest.digest, optimizedRequest.digest].toFinset.card _, _) = _
  rw [two]
  rfl

/-- The text of a configuration that has its scratch root below the configuration file. -/
def blockedText : String := "[cache]\nscratch_dir = \"kiln.toml/c\"\n"

def blockedConfig : Config := { Config.default with scratch := "kiln.toml/c" }

/-- A project with this configuration. -/
def blockedProject : FileTree :=
  ⟨[([Config.fileName], .file (Text.utf8 blockedText.toList) false)]⟩

/-- A root below a file is not there and cannot be made either. Cleaning the project fails then,
even if nothing was ever compiled in it. -/
theorem clean_of_blocked_root :
    ProjectAt blockedProject [] blockedConfig ∧ blockedConfig.remote = none ∧
      blockedProject.lookup [] (blockedConfig.scratchRoot (Location.path [])) =
        .error .notDirectory ∧
      Session bareHost [] blockedProject blockedProject [] ∧ InProject blockedProject [] [] ∧
      CommandLine.perform bareHost (.run ⟨false, false, none⟩ .clean) ⟨blockedProject, [], 1, 0⟩ =
        (.failed "" "cache I/O error at /kiln.toml/c: Not a directory (os error 20)",
          ⟨blockedProject, [], 1, 0⟩) := by
  have at_ : ProjectAt blockedProject [] blockedConfig :=
    ⟨by simp, blockedText, text_of_file (top_found rfl) (of_utf8_utf8 _), by decide +kernel⟩
  have unlisted : blockedProject.lookup [] (blockedConfig.scratchRoot (Location.path [])) =
      .error .notDirectory := by
    have accepted : Accepted (blockedConfig.scratchRoot (Location.path [])) :=
      by decide
    have walked : walk blockedProject true maxLinks [] .directory ["", Config.fileName, "c"] =
        .error .notDirectory := by
      rw [walk_idle (by decide), walk_found (by decide) rfl (by simp),
        walk_outside (by simp)]
    have pieces : (blockedConfig.scratchRoot (Location.path [])).pieces =
        ["", Config.fileName, "c"] := by decide
    rw [lookup, find_accepted accepted, ite_self, pieces, walked]
  refine ⟨at_, rfl, unlisted, .idle, inside_top _, ?_⟩
  have found := @project_found _ _ _ _ at_ (inside_top _) ⟨false, false, none⟩ rfl 1 0
  simp only [CommandLine.perform, CommandLine.clean, found, Cache.clear, listDirectory, unlisted]
  rfl

end Cleaning

end ContractBuild.CleanedProject
