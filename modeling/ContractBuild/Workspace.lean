import ContractBuild.FileTree.Change

/-! What a running program can see and change: the file tree, its working directory, and the names
it has given to temporary files. An operation that fails keeps what it changed before it failed. -/
namespace ContractBuild

/-- The files, and one process working on them. -/
structure Workspace where
  files : FileTree
  /-- The working directory. -/
  here : Location
  /-- The number of the process. -/
  process : Nat
  /-- How many temporary names have been given out. -/
  issued : Nat

/-- An operation on a workspace that may fail. -/
abbrev Disk (ε : Type) := EStateM ε Workspace

namespace Workspace

/-- The process's own view of its working directory, which every system shows at this place. -/
def selfLink : Location := ["proc", "self", "cwd"]

/-- The workspace with another working directory. -/
def enter (w : Workspace) (here : Location) : Workspace :=
  let files := (w.files.makeDirectories [] (Location.path selfLink.dropLast)).2
  { w with files := files.set selfLink (.link (Location.path here)), here }

/-- A workspace with nothing in it but its working directory. -/
def fresh (here : Location) (process : Nat) : Workspace :=
  let files := (FileTree.empty.makeDirectories [] (Location.path here)).2
  enter { files, here, process, issued := 0 } here

def isFile (w : Workspace) (path : Path) : Bool := w.files.isFile w.here path

def isDirectory (w : Workspace) (path : Path) : Bool := w.files.isDirectory w.here path

def canonical (w : Workspace) (path : Path) : Except FileError Location :=
  w.files.canonical w.here path

def read (w : Workspace) (path : Path) : Except FileError Bytes := w.files.read w.here path

def readText (w : Workspace) (path : Path) : Except FileError String := w.files.readText w.here path

end Workspace

namespace Disk

variable {ε : Type}

/-- A change to the file tree, its failure reported as `fail` says. -/
def change (fail : FileError → ε) (act : FileTree → Location → Except FileError FileTree) :
    Disk ε Unit := fun w =>
  match act w.files w.here with
  | .ok files => .ok () { w with files }
  | .error error => .error (fail error) w

/-- Makes a directory and the ones missing above it. -/
def makeDirectories (fail : FileError → ε) (path : Path) : Disk ε Unit := fun w =>
  match w.files.makeDirectories w.here path with
  | (.ok (), files) => .ok () { w with files }
  | (.error error, files) => .error (fail error) { w with files }

/-- Writes a file. -/
def write (fail : FileError → ε) (path : Path) (content : Bytes) : Disk ε Unit :=
  change fail fun files here => files.write here path content

/-- Moves a file to another name. -/
def moveFile (fail : FileError → ε) (old new : Path) : Disk ε Unit :=
  change fail fun files here => files.moveFile here old new

/-- A name for a temporary file beside the file that is to be called `name`: hidden, and used by no
other writer. -/
def temporaryName (name : String) : Disk ε String := fun w =>
  .ok s!".{name}.{w.process}.{w.issued}.tmp" { w with issued := w.issued + 1 }

/-- Writes a file under a temporary name and then moves it into place, so that a reader finds the
old content or the new one and never a part. -/
def writeWhole (fail : Path → FileError → ε) (directory : Path) (name : String) (content : Bytes) :
    Disk ε Path := do
  let place := directory.join ⟨name⟩
  let temporary := directory.join ⟨← temporaryName name⟩
  write (fail temporary) temporary content
  moveFile (fail place) temporary place
  return place

end Disk

end ContractBuild
