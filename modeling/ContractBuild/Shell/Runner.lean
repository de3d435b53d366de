import ContractBuild.Compiler.Program
import ContractBuild.Shell.Run

/-! Running programs that are shell scripts or utilities. -/
namespace ContractBuild.Shell

/-- Steps that a script may take. -/
def maxSteps : Nat := 20000

/-- The two streams of a program: buffers zero and one. -/
def Streams.standard : Streams := ⟨.buffer 0, .buffer 1⟩

/-- What a buffer has collected. -/
def Machine.collected (m : Machine) (id : Nat) : Raw :=
  (((m.buffers.find? fun entry => entry.1 = id).map Prod.snd).getD []).reverse.flatten

/-- Runs an action as a program in a directory, and gives back the working directory that was there
before. -/
def runProgram (act : Run Unit) (name : Raw) (arguments : List Raw) (lines timeout : Nat)
    (here : Location) (w : Workspace) : RunOutcome × Workspace :=
  let start : Machine :=
    { workspace := w.enter here, bindings := [], functions := [], name, arguments, status := 0,
      input := [], buffers := [(0, []), (1, [])], elapsed := 0, limit := timeout, lines, after := 0,
      strict := false, awaited := false, own := [] }
  let ended (status : Nat) (m : Machine) : RunOutcome × Workspace :=
    (.ended status (Raw.toBytes (m.collected 1)) (Raw.toBytes (m.collected 0)),
      m.workspace.enter w.here)
  if timeout = 0 then (.timedOut, w)
  else
    match act start with
    | .ok () m => ended m.status m
    | .error (.exit status) m => ended status m
    | .error (.back status) m => ended status m
    | .error .stopped m => (.timedOut, m.workspace.enter w.here)
    | .error _ m => ended m.status m

/-- The directories of the utilities. -/
def utilityDirectories : List String := ["/bin/", "/usr/bin/"]

/-- The utility that the name of a program leads to. -/
def utilityOf? (program : String) : Option Utility :=
  if program.toList.contains '/' then
    utilityDirectories.findSome? fun directory =>
      (Text.after? directory.toList program.toList).bind Utility.ofName?
  else Utility.ofName? program.toList

/-- Whether a file is a shell script. -/
def isScript (content : Bytes) : Bool :=
  let line := (Raw.ofBytes content).takeWhile (· != '\n')
  ["#!/bin/sh", "#! /bin/sh", "#!/bin/dash", "#!/bin/bash", "#!/usr/bin/env sh"].any fun mark =>
    mark.toList = line

/-- Runs a program that is a shell script or a utility. -/
def runner : ProgramRunner := fun invocation w =>
  let arguments := invocation.arguments.map Raw.ofString
  let name := Raw.ofString invocation.program
  if (invocation.program :: invocation.arguments).any fun text => text.toList.contains '\x00' then
    (.notStarted .zeroInArgument, w)
  else
    let directory := match invocation.directory with
      | some path => w.canonical path
      | none => .ok w.here
    match directory with
    | .error cause => (.notStarted cause, w)
    | .ok here =>
      match utilityOf? invocation.program with
      | some utility =>
        runProgram (Run.useUtility .standard [] utility arguments) name arguments 0
          invocation.timeout here w
      | none =>
        if ¬ invocation.program.toList.contains '/' then (.notStarted .notFound, w)
        else
          match w.files.lookup here ⟨invocation.program⟩ with
          | .error cause => (.notStarted cause, w)
          | .ok (_, .file content true) =>
            if ¬ isScript content then (.notStarted .notProgram, w)
            else
              let text := Raw.ofBytes content
              let act := match readScript? text with
                | some commands => Run.runAll maxSteps .standard commands
                | none => do
                  Run.write (.buffer 1) (name ++ ": Syntax error\n".toList)
                  throw (.exit 2)
              runProgram act name arguments (text.countP (· == '\n')) invocation.timeout here w
          | .ok _ => (.notStarted .permissionDenied, w)

end ContractBuild.Shell
