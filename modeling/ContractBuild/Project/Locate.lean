import ContractBuild.Project.ConfigText

/-! Finding a project: the directory that its paths are relative to, and its configuration. -/
namespace ContractBuild

/-- Why no project is loaded. -/
inductive ProjectError where
  /-- A configuration file that was asked for cannot be read. -/
  | read (cause : FileError)
  | config (cause : ConfigError)
  deriving DecidableEq

namespace ProjectError

/-- The error as it is shown. -/
def message : ProjectError → String
  | read cause => cause.message
  | config cause => cause.message

end ProjectError

/-- A project. -/
structure Project where
  /-- The directory that the paths of the configuration are relative to. -/
  directory : Path
  config : Config
  deriving DecidableEq

namespace Project

/-- The nearest directory with a configuration file, from a directory upwards. -/
def root? (w : Workspace) (directory : Path) : Option Path :=
  if w.isFile (Config.file directory) then some directory
  else
    match _above : directory.parent? with
    | some parent => root? w parent
    | none => none
termination_by directory.text.toList.length
decreasing_by exact Path.parent?_shorter _above

/-- The project of a configuration file or directory that is named. -/
def named (w : Workspace) (path : Path) : Except ProjectError Project :=
  if w.isFile path then
    match w.readText path with
    | .error cause => .error (.read cause)
    | .ok text =>
      match Config.ofText text with
      | .ok config => .ok ⟨path.directory, config⟩
      | .error cause => .error (.config cause)
  else
    match Config.load w path with
    | .ok config => .ok ⟨path, config⟩
    | .error cause => .error (.config cause)

/-- The project that the working directory is in. Without a configuration file it is the working
directory itself, and states nothing. -/
def current (w : Workspace) : Except ProjectError Project :=
  let directory := (root? w w.here.path).getD w.here.path
  match Config.loadOrDefault w directory with
  | .ok config => .ok ⟨directory, config⟩
  | .error cause => .error (.config cause)

end Project

end ContractBuild
