import ContractBuild.Workspace

/-! Running programs. How a program comes to its outcome is left to the host; here is what is asked
of it and what it may answer. -/
namespace ContractBuild

/-- A run of a program. -/
structure Invocation where
  /-- The name or path of the executable. -/
  program : String
  arguments : List String
  /-- The directory to run in, if it is not the working directory. A program that is given by a
  relative path is looked for from there. -/
  directory : Option Path
  /-- Milliseconds after which the program is stopped. -/
  timeout : Nat

/-- What became of a program. -/
inductive RunOutcome where
  /-- The program ended by itself; what it wrote to its error stream and to its output. -/
  | ended (status : Nat) (errors output : Bytes)
  | timedOut
  | notStarted (cause : FileError)

/-- A system that runs programs on the files of a workspace. -/
abbrev ProgramRunner := Invocation → Workspace → RunOutcome × Workspace

end ContractBuild
