import ContractBuild.CommandLine.Places
import ContractBuild.FileTree.Difference
import ContractBuild.Shell.Runner

/-! The program. It reads the part of the file system that its command line may look at, runs the
command on that, prints what the command prints, and writes the changes back. -/
namespace ContractBuild.Main

/-- The location that an absolute path spells. -/
def locationOf (path : String) : Location :=
  (Path.mk path).pieces.filter fun piece => !Path.isIdle piece

/-- Whether a file is one that a shell can run. -/
def isRunnable (content : Bytes) : Bool := (Text.utf8 ['#', '!']).isPrefixOf content

/-- Everything that is at a location and inside it; what cannot be read is left out. -/
partial def entriesAt (location : Location) : IO (List (Location × Node)) := do
  let place := (← IO.currentDir) / location.path.text
  try
    match (← place.symlinkMetadata).type with
    | .dir =>
      let inner ← (← place.readDir).toList.mapM fun entry =>
        entriesAt (location ++ [entry.fileName])
      return (location, .directory) :: inner.flatten
    | .file =>
      let content := (← IO.FS.readBinFile place).toList
      return [(location, .file content (isRunnable content))]
    | .symlink => return [(location, .link ⟨(← IO.FS.realPath place).toString⟩)]
    | .other => return []
  catch _ => return []

/-- A part of the file system. -/
structure Snapshot where
  files : FileTree
  /-- The locations of which everything inside is in the part. -/
  covered : List Location

namespace Snapshot

/-- A snapshot with everything at a location, and with the directories that lead there. -/
def withLocation (snapshot : Snapshot) (location : Location) : IO Snapshot := do
  if snapshot.covered.any fun covered => covered.isWithin location then return snapshot
  let found ← entriesAt location
  let files := Location.above location |>.foldl
    (fun files directory =>
      if (files.get? directory).isSome then files else files.set directory .directory)
    (snapshot.files.prune location)
  return ⟨⟨found ++ files.entries⟩, location :: snapshot.covered⟩

/-- A snapshot with everything at some paths, both as the paths are spelled and as links lead. -/
def withPaths (snapshot : Snapshot) (paths : List Path) : IO Snapshot := do
  let mut snapshot := snapshot
  for path in paths do
    let place := (← IO.currentDir) / path.text
    snapshot ← snapshot.withLocation (locationOf place.toString)
    try snapshot ← snapshot.withLocation (locationOf (← IO.FS.realPath place).toString)
    catch _ => pure ()
  return snapshot

end Snapshot

/-- The workspace of a command line: its working directory, the configurations above that, the
places that it names and those that its project names. -/
def workspaceOf (demand : CommandLine.Demand) : IO Workspace := do
  let here := locationOf (← IO.currentDir).toString
  let start := Workspace.fresh here 0
  let mut configurations := []
  for directory in Location.above here do
    configurations := configurations ++ (← entriesAt (directory ++ [Config.fileName]))
  let snapshot : Snapshot := ⟨⟨configurations ++ start.files.entries⟩, []⟩
  let snapshot ← snapshot.withLocation here
  let snapshot ← snapshot.withPaths (CommandLine.namedPaths demand)
  let w := { start with files := snapshot.files }
  let snapshot ← snapshot.withPaths (CommandLine.projectPaths demand w)
  return { start with files := snapshot.files }

/-- Makes the changes from one file tree to another in the file system. -/
def writeBack (difference : FileTree.Difference) : IO Unit := do
  for location in difference.gone do
    let place := (← IO.currentDir) / location.path.text
    if ← place.isDir then IO.FS.removeDir place else IO.FS.removeFile place
  for (location, node) in difference.changed do
    let place := (← IO.currentDir) / location.path.text
    match node with
    | .directory => IO.FS.createDirAll place
    | .file content _ => IO.FS.writeBinFile place ⟨content.toArray⟩
    | .link _ => pure ()

/-- Runs the program and answers the status that it ends with. -/
def runProgram (arguments : List String) : IO UInt32 := do
  match CommandLine.read arguments with
  | none =>
    IO.eprint CommandLine.usageText
    return CommandLine.usageStatus.toUInt32
  | some demand =>
    let before ← workspaceOf demand
    let (outcome, after) := CommandLine.perform ⟨Shell.runner, Network.unreachable⟩ demand before
    writeBack (before.files.difference after.files)
    IO.print outcome.output
    IO.eprint outcome.errors
    return outcome.status.toUInt32

end ContractBuild.Main

/-- The entry point of the program. -/
def main (arguments : List String) : IO UInt32 := ContractBuild.Main.runProgram arguments
