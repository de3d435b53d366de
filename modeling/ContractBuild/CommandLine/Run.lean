import ContractBuild.CommandLine.Arguments
import ContractBuild.Pipeline
import ContractBuild.Project.Locate

/-! Running the command line: each command as a change of a workspace, with the texts that it prints
and the status that it ends with. -/
namespace ContractBuild.CommandLine

/-- How a run of the command line ends. -/
structure Outcome where
  status : Nat
  output : String
  errors : String
  deriving DecidableEq

namespace Outcome

/-- The status of a run that fails. -/
def failureStatus : Nat := 1

/-- The status of a run in which the compiler rejects the source. -/
def rejectionStatus : Nat := 2

/-- The end of a run that fails, after some notes. -/
def failed (notes message : String) : Outcome := ⟨failureStatus, "", s!"{notes}error: {message}\n"⟩

end Outcome

/-- The status of a run whose command line is not well-formed. -/
def usageStatus : Nat := 2

/-- The name and version of the program. -/
def versionText : String := "kiln 0.1.0\n"

/-- How the program is called. -/
def usageText : String :=
  "Usage: kiln [-q] [-v] [--config <CONFIG>] <COMMAND>\n\nCommands:\n" ++
    "  compile <ENTRY> [--optimize] [--libraries <LIBRARIES>] [-f <text|json>]\n" ++
    "  request <ENTRY> [--optimize] [--libraries <LIBRARIES>]\n" ++
    "  clean\n"

/-- The project that a command works on. -/
def project (w : Workspace) (globals : Globals) : Except ProjectError Project :=
  match globals.config with
  | some path => Project.named w ⟨path⟩
  | none => Project.current w

/-- A text that is printed unless the run is quiet. -/
def note (globals : Globals) (text : String) : String := if globals.quiet then "" else text

/-- The objects of a response as text. -/
def render (response : Response) : String :=
  String.join (response.objects.map fun object =>
    s!"{object.name}\n  bin: {object.bytecode}\n  abi: {object.interface}\n")

/-- The version that the installed compiler reports, if the project may use that compiler and it
answers. -/
def installedVersion (host : Host) (project : Project) (w : Workspace) :
    Option String × Workspace :=
  if project.config.remote.all RemoteSettings.fallbackLocal then
    match (Pipeline.installedCompiler host project.config project.directory).version w with
    | .ok version after => (some version, after)
    | .error _ after => (none, after)
  else (none, w)

/-- The pipeline of a project, for a version of its compiler. -/
def pipeline (host : Host) (project : Project) (version : Option String) : Pipeline Unit :=
  let pipeline := Pipeline.ofConfig host project.config project.directory
  match version with
  | some version => pipeline.withAssumedVersion version
  | none => pipeline

/-- The end of a run that has a response. -/
def responseOutcome (globals : Globals) (format : Format) (notes : String) (response : Response) :
    Outcome :=
  let status := if response.isRejection then Outcome.rejectionStatus else 0
  match format with
  | .json => ⟨status, response.toPretty ++ "\n", notes⟩
  | .text =>
    if response.isRejection then ⟨status, "", s!"{notes}{response.error}\n"⟩
    else
      let warning := if response.warning = "" then "" else note globals s!"{response.warning}\n"
      ⟨status, render response, notes ++ warning⟩

/-- Compiles an entry file and prints the result. -/
def compile (host : Host) (globals : Globals) (entry : String) (options : Options) (format : Format)
    (w : Workspace) : Outcome × Workspace :=
  match project w globals with
  | .error error => (.failed "" error.message, w)
  | .ok project =>
    let (version, w) := installedVersion host project w
    let notes := if format = .text then note globals s!"   Compiling {entry}\n" else ""
    match (pipeline host project version).compile ⟨entry⟩ options ⟨w, ()⟩ with
    | .ok response after => (responseOutcome globals format notes response, after.workspace)
    | .error error after => (.failed notes error.message, after.workspace)

/-- Prints the request for an entry file. -/
def request (globals : Globals) (entry : String) (options : Options) (w : Workspace) : Outcome :=
  match project w globals with
  | .error error => .failed "" error.message
  | .ok project =>
    match prepare w (project.config.searchRoots project.directory) ⟨entry⟩ options with
    | .error error => .failed "" error.message
    | .ok prepared =>
      let digest := prepared.request.digest.toHex
      let count := prepared.request.includes.size
      ⟨0, prepared.request.toPretty ++ "\n",
        note globals s!"   Request {digest} ({count} file(s))\n"⟩

/-- Removes everything in the cache of the project. -/
def clean (globals : Globals) (w : Workspace) : Outcome × Workspace :=
  match project w globals with
  | .error error => (.failed "" error.message, w)
  | .ok project =>
    let cache : Cache := ⟨project.config.scratchRoot project.directory⟩
    match cache.clear w with
    | .ok count after =>
      (⟨0, "",
        note globals s!"   Removed {count} cached request(s) from {cache.root.text}\n"⟩, after)
    | .error error after => (.failed "" error.message, after)

/-- Does what a command line asks for. -/
def perform (host : Host) (demand : Demand) (w : Workspace) : Outcome × Workspace :=
  match demand with
  | .version => (⟨0, versionText, ""⟩, w)
  | .help => (⟨0, usageText, ""⟩, w)
  | .run globals (.compile entry options format) => compile host globals entry options format w
  | .run globals (.request entry options) => (request globals entry options w, w)
  | .run globals .clean => clean globals w

end ContractBuild.CommandLine
