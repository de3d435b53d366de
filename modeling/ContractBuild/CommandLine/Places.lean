import ContractBuild.CommandLine.Run

/-! The places in the file tree that a command line may look at, besides the directory of the
project. -/
namespace ContractBuild.CommandLine

/-- The paths that a command line names itself; of a source file, its directory. -/
def namedPaths : Demand → List Path
  | .run globals command =>
    let entry := match command with
      | .compile entry _ _ => [(Path.mk entry).directory]
      | .request entry _ => [(Path.mk entry).directory]
      | .clean => []
    entry ++ (globals.config.map Path.mk).toList
  | .version | .help => []

/-- The paths that the project of a command line names. -/
def projectPaths (demand : Demand) (w : Workspace) : List Path :=
  match demand with
  | .run globals _ =>
    match project w globals with
    | .ok project =>
      [project.directory, project.config.scratchRoot project.directory,
        Path.mk project.config.compiler.binary] ++ project.config.searchRoots project.directory
    | .error _ => []
  | .version | .help => []

end ContractBuild.CommandLine
