import ContractBuild.Cache.Basic
import ContractBuild.Compiler.Basic
import ContractBuild.Compiler.Program

/-! The compiler that is installed as a program. The sources of a request are written into a
directory that belongs to its digest, under the names in the request, and the program runs there; so
it never learns where the sources came from. -/
namespace ContractBuild

/-- A compiler that is run as a program. -/
structure InstalledCompiler where
  /-- The name or path of the executable. -/
  binary : String
  /-- The cache whose directories the sources are written into. -/
  cache : Cache
  /-- Milliseconds that one run may take. -/
  timeout : Nat
  run : ProgramRunner

namespace InstalledCompiler

/-- The status of a program that rejects the source. -/
def rejectionStatus : Nat := 1

/-- A failure of the program. -/
def fail (compiler : InstalledCompiler) (failure : InvocationFailure) : DispatchError :=
  .invocation compiler.binary failure

/-- Runs the program and answers its status and what it wrote, errors first. Each of the two streams
is decoded on its own. -/
def execute (compiler : InstalledCompiler) (directory : Option Path) (arguments : List String) :
    Disk DispatchError (Nat × String) := fun w =>
  match compiler.run ⟨compiler.binary, arguments, directory, compiler.timeout⟩ w with
  | (.ended status errors output, after) =>
    .ok (status, String.ofList (Text.ofUtf8Lossy errors ++ Text.ofUtf8Lossy output)) after
  | (.timedOut, after) => .error (compiler.fail (.timeout compiler.timeout)) after
  | (.notStarted .notFound, after) => .error (compiler.fail .notFound) after
  | (.notStarted cause, after) => .error (compiler.fail (.io cause)) after

/-- The version in what a compiler says of itself: what follows `Version:` on the first line that
has it, or else the last line that is not blank. -/
def versionIn (text : List Char) : List Char :=
  let lines := Text.lines text
  match lines.findSome? (Text.cut? "Version:".toList) with
  | some (_, version) => Text.trim version
  | none => ((lines.map Text.trim).reverse.find? fun line => !line.isEmpty).getD []

/-- Asks the program for its version. -/
def version (compiler : InstalledCompiler) : Disk DispatchError String := do
  let (status, output) ← compiler.execute none ["--version"]
  if status = 0 then return String.ofList (versionIn output.toList)
  else throw (compiler.fail (.exit status output))

/-- Writes sources into a directory that is there. A file that is there already is left alone, since
its name tells its content. -/
def writeSources (directory : Path) :
    List (String × Source.IncludedFile) → Disk DispatchError Unit
  | [] => pure ()
  | (key, file) :: files => do
    if (← get).isFile (directory.join ⟨key⟩) then pure ()
    else
      let _ ← Disk.writeWhole .materialize directory key (Text.utf8 file.script.toList)
    writeSources directory files

/-- Writes the sources of a request into a directory. -/
def materialize (request : Request) (directory : Path) : Disk DispatchError Unit := do
  Disk.makeDirectories (.materialize directory) directory
  writeSources directory request.includes.entries

/-- The arguments that ask for a request to be compiled. -/
def arguments (request : Request) : List String :=
  ["--combined-json", "bin,abi"] ++ (if request.optimize then ["--optimize"] else []) ++
    (match request.librariesArgument? with
      | some libraries => ["--libraries", libraries]
      | none => []) ++
    [request.entry]

/-- Compiles a request. The program rejects a source by its status, if it says anything at all. -/
def send (compiler : InstalledCompiler) (request : Request) :
    Disk DispatchError CompilerOutput := do
  let directory := compiler.cache.sources request.digest
  materialize request directory
  let (status, output) ← compiler.execute (some directory) (arguments request)
  if status = 0 then return ⟨output, false⟩
  else if status = rejectionStatus ∧ Text.trim output.toList ≠ [] then return ⟨output, true⟩
  else throw (compiler.fail (.exit status output))

/-- The compiler in a few words. -/
def description (compiler : InstalledCompiler) : String := s!"local compiler '{compiler.binary}'"

/-- The program as a compiler of a pipeline. -/
def toCompiler {σ : Type} (compiler : InstalledCompiler) : Compiler σ :=
  ⟨fun request => Act.onDisk id (compiler.send request), compiler.description⟩

end InstalledCompiler

end ContractBuild
