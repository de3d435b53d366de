import ContractBuild.Proofs.SourcesSpared
import ContractBuild.Proofs.WriterSteps

/-! How the sources of a request are written into the directory of its digest, wherever this stops. No
file but these and their temporary ones is changed, and a source that was not there is there as a
whole or not at all. -/
namespace ContractBuild.SourcesWritten
open CachePlace CacheChange FileTree PathRoute PathWalk SourcesSpared WriterSteps WrittenFiles

/-- What writing files into a directory has come to when it stops: directories have been made, files
that were there have been passed over, others have been written, and the last writer may have been cut
short. -/
inductive Writing (directory : Path) :
    List (String × Source.IncludedFile) → Workspace → Workspace → Prop where
  | stop {files : List (String × Source.IncludedFile)} {w : Workspace} : Writing directory files w w
  | make {files : List (String × Source.IncludedFile)} {w middle after : Workspace} {name : String}
      {content : Bytes}
      (made : Progress ⟨directory, name, content⟩ (w, .starting) (middle, .starting))
      (rest : Writing directory files middle after) : Writing directory files w after
  | pass {files : List (String × Source.IncludedFile)} {w after : Workspace} {key : String}
      {file : Source.IncludedFile} (there : w.isFile (directory.join ⟨key⟩) = true)
      (rest : Writing directory files w after) : Writing directory ((key, file) :: files) w after
  | write {files : List (String × Source.IncludedFile)} {w middle after : Workspace} {key : String}
      {file : Source.IncludedFile}
      (whole : Progress ⟨directory, key, Text.utf8 file.script.toList⟩ (w, .starting)
        (middle, .moved))
      (rest : Writing directory files middle after) :
      Writing directory ((key, file) :: files) w after
  | cut {files : List (String × Source.IncludedFile)} {w after : Workspace} {key : String}
      {file : Source.IncludedFile} {stage : Stage}
      (part : Progress ⟨directory, key, Text.utf8 file.script.toList⟩ (w, .starting) (after, stage))
      (unmoved : stage ≠ .moved) : Writing directory ((key, file) :: files) w after

section Runs
variable {directory : Path} {files : List (String × Source.IncludedFile)} {w after : Workspace}

theorem is_file_iff (w : Workspace) (path : Path) :
    w.isFile path = true ↔ ∃ content, w.read path = .ok content := by
  unfold Workspace.isFile FileTree.isFile Workspace.read FileTree.read
  cases looked : w.files.lookup w.here path with
  | error cause => simp
  | ok found =>
    obtain ⟨location, node⟩ := found
    cases node <;> simp

/-- There is no file where nothing is found. -/
theorem not_file_of_free {path : Path} {location : Location} {slash : Bool}
    (found : w.files.find true w.here path = .ok (.free location slash)) :
    w.isFile path = false := by
  unfold Workspace.isFile FileTree.isFile lookup
  rw [found]

theorem write_sources_cons (directory : Path) (key : String) (file : Source.IncludedFile)
    (files : List (String × Source.IncludedFile)) (w : Workspace) :
    InstalledCompiler.writeSources directory ((key, file) :: files) w =
      if w.isFile (directory.join ⟨key⟩) then InstalledCompiler.writeSources directory files w
      else (Disk.writeWhole .materialize directory key (Text.utf8 file.script.toList) >>=
        fun _ => InstalledCompiler.writeSources directory files) w := by
  by_cases there : w.isFile (directory.join ⟨key⟩) = true
  · rw [if_pos there, InstalledCompiler.writeSources,
      bind_of_ok (show (get : Disk DispatchError Workspace) w = .ok w w from rfl), if_pos there]
  · rw [if_neg there, InstalledCompiler.writeSources,
      bind_of_ok (show (get : Disk DispatchError Workspace) w = .ok w w from rfl), if_neg there]

/-- Writing sources takes these steps, whether it succeeds or fails. -/
theorem writing_of_sources (directory : Path) (files : List (String × Source.IncludedFile))
    (w : Workspace) :
    Writing directory files w (leftBy (InstalledCompiler.writeSources directory files w)) := by
  induction files generalizing w with
  | nil => exact .stop
  | cons entry files ih =>
    obtain ⟨key, file⟩ := entry
    rw [write_sources_cons]
    split
    · rename_i there
      exact .pass there (ih w)
    · cases done : Disk.writeWhole DispatchError.materialize directory key
          (Text.utf8 file.script.toList) w with
      | ok written middle =>
        rw [bind_of_ok done]
        exact .write (progress_of_write_whole done) (ih middle)
      | error error left =>
        rw [bind_of_error done]
        obtain ⟨stage, unmoved, part⟩ := progress_of_failed_write done
        exact .cut part unmoved

/-- So does materializing a request, which first makes the directory. -/
theorem writing_of_materialize (request : Request) (directory : Path) (w : Workspace) :
    Writing directory request.includes.entries w
      (leftBy (InstalledCompiler.materialize request directory w)) := by
  unfold InstalledCompiler.materialize
  cases made : Disk.makeDirectories (DispatchError.materialize directory) directory w with
  | ok answer middle =>
    rw [bind_of_ok made]
    exact .make (progress_of_make_directories ⟨directory, "", []⟩ made)
      (writing_of_sources directory _ middle)
  | error error left =>
    rw [bind_of_error made]
    exact .make (progress_of_failed_directories ⟨directory, "", []⟩ made) .stop

end Runs

section Sends
variable {compiler : InstalledCompiler} {request : Request} {w written : Workspace}

/-- The run of its program that an installed compiler makes for a request. -/
def callFor (compiler : InstalledCompiler) (request : Request) : Invocation :=
  ⟨compiler.binary, InstalledCompiler.arguments request,
    some (compiler.cache.sources request.digest), compiler.timeout⟩

/-- What an installed compiler makes of the outcome of a run. -/
def heard (compiler : InstalledCompiler) :
    RunOutcome × Workspace → EStateM.Result DispatchError Workspace CompilerOutput
  | (.ended status errors output, after) =>
    let text := String.ofList (Text.ofUtf8Lossy errors ++ Text.ofUtf8Lossy output)
    if status = 0 then .ok ⟨text, false⟩ after
    else if status = InstalledCompiler.rejectionStatus ∧ Text.trim text.toList ≠ [] then
      .ok ⟨text, true⟩ after
    else .error (compiler.fail (.exit status text)) after
  | (.timedOut, after) => .error (compiler.fail (.timeout compiler.timeout)) after
  | (.notStarted .notFound, after) => .error (compiler.fail .notFound) after
  | (.notStarted cause, after) => .error (compiler.fail (.io cause)) after

/-- If the sources cannot be written, the program is not run. -/
theorem send_of_failed {error : DispatchError}
    (failed : InstalledCompiler.materialize request (compiler.cache.sources request.digest) w =
      .error error written) : compiler.send request w = .error error written := by
  unfold InstalledCompiler.send
  exact bind_of_error failed _

/-- Once they are written, it is run for the request, and the outcome decides. -/
theorem send_of_written
    (done : InstalledCompiler.materialize request (compiler.cache.sources request.digest) w =
      .ok () written) :
    compiler.send request w = heard compiler (compiler.run (callFor compiler request) written) := by
  unfold InstalledCompiler.send
  refine (bind_of_ok done _).trans ?_
  cases ran : compiler.run (callFor compiler request) written with
  | mk outcome after =>
    unfold callFor at ran
    cases outcome with
    | ended status errors output =>
      have executed : compiler.execute (some (compiler.cache.sources request.digest))
          (InstalledCompiler.arguments request) written = .ok (status, String.ofList
            (Text.ofUtf8Lossy errors ++ Text.ofUtf8Lossy output)) after := by
        unfold InstalledCompiler.execute
        rw [ran]
      refine (bind_of_ok executed _).trans ?_
      dsimp only [heard]
      split
      · rfl
      · split <;> rfl
    | timedOut =>
      have executed : compiler.execute (some (compiler.cache.sources request.digest))
          (InstalledCompiler.arguments request) written =
            .error (compiler.fail (.timeout compiler.timeout)) after := by
        unfold InstalledCompiler.execute
        rw [ran]
      exact bind_of_error executed _
    | notStarted cause =>
      have executed : compiler.execute (some (compiler.cache.sources request.digest))
          (InstalledCompiler.arguments request) written =
            .error (compiler.fail (if cause = .notFound then .notFound else .io cause)) after := by
        unfold InstalledCompiler.execute
        rw [ran]
        cases cause <;> rfl
      refine (bind_of_error executed _).trans ?_
      cases cause <;> rfl

/-- What is left is what the program left. -/
theorem left_by_heard (outcome : RunOutcome × Workspace) :
    leftBy (heard compiler outcome) = outcome.2 := by
  obtain ⟨outcome, after⟩ := outcome
  cases outcome with
  | ended status errors output =>
    dsimp only [heard]
    split
    · rfl
    · split <;> rfl
  | timedOut => rfl
  | notStarted cause => cases cause <;> rfl

/-- Whatever the program does, sending a request comes to nothing but an error from writing the
sources, or to one run where they are written. -/
theorem send_runs (compiler : InstalledCompiler) (request : Request) (w : Workspace) :
    (∃ error left, ∀ run, { compiler with run := run }.send request w = .error error left) ∨
      ∃ written,
        InstalledCompiler.materialize request (compiler.cache.sources request.digest) w =
          .ok () written ∧
        ∀ run, { compiler with run := run }.send request w =
          heard compiler (run (callFor compiler request) written) := by
  cases done : InstalledCompiler.materialize request (compiler.cache.sources request.digest) w with
  | error error left => exact Or.inl ⟨error, left, fun run => send_of_failed done⟩
  | ok answer written => exact Or.inr ⟨written, rfl, fun run => send_of_written done⟩

end Sends

section Effects
variable {cache : Cache} {place : Location} {digest : Digest}
  {files : List (String × Source.IncludedFile)} {w after : Workspace} {key : String}

/-- The location of a source in the directory of a digest. -/
def sourcePlace (place : Location) (digest : Digest) (key : String) : Location :=
  place ++ [digest.toHex, Cache.sourcesName, key]

/-- A name that no temporary file has. -/
def Lasting (key : String) : Prop := ∀ name process number, key ≠ hiddenName name process number

theorem source_place_injective {digest' : Digest} {key' : String}
    (same : sourcePlace place digest key = sourcePlace place digest' key') :
    digest = digest' ∧ key = key' := by
  simp only [sourcePlace, List.append_cancel_left_eq, List.cons.injEq, and_true, true_and] at same
  exact ⟨ByteForms.to_hex_injective same.1, same.2⟩

/-- One writer of a source changes no other one. -/
private theorem source_effect {content : Bytes} {stage : Stage} (placed : Placed cache place w)
    (plain : Plain key)
    (progress : Progress ⟨cache.sources digest, key, content⟩ (w, .starting) (after, stage)) :
    Confined (fun location => ∃ name, location = sourcePlace place digest name) w after ∧
      ∀ other, Lasting other →
        contentAt? after.files (sourcePlace place digest other) =
            contentAt? w.files (sourcePlace place digest other) ∨
          stage = .moved ∧ other = key ∧
            contentAt? after.files (sourcePlace place digest other) = some content := by
  have inside : Inside cache [digest.toHex, Cache.sourcesName] ⟨cache.sources digest, key, content⟩ :=
    ⟨rfl, artifact_plain digest sources_plain, plain⟩
  obtain ⟨confined, whole⟩ := progress_effect placed inside progress
  refine ⟨confined_mono confined ?_, fun other lasting => ?_⟩
  · rintro location (⟨number, own⟩ | ⟨-, own⟩)
    · exact ⟨_, own⟩
    · exact ⟨_, own⟩
  · by_cases final : stage = .moved ∧ other = key
    · obtain ⟨moved, rfl⟩ := final
      exact Or.inr ⟨moved, rfl, whole moved⟩
    · refine Or.inl (confined.elsewhere _ ?_)
      rintro (⟨number, own⟩ | ⟨moved, own⟩)
      · exact lasting _ _ _ (source_place_injective own).2
      · exact final ⟨moved, (source_place_injective own).2⟩

/-- Writing sources changes no file but those in the directory of their digest. There, a file is as it
was or is one of the sources, whole. -/
theorem writing_effect (placed : Placed cache place w) (plain : ∀ entry ∈ files, Plain entry.1)
    (run : Writing (cache.sources digest) files w after) :
    Confined (fun location => ∃ name, location = sourcePlace place digest name) w after ∧
      ∀ key, Lasting key →
        contentAt? after.files (sourcePlace place digest key) =
            contentAt? w.files (sourcePlace place digest key) ∨
          ∃ file, (key, file) ∈ files ∧ contentAt? after.files (sourcePlace place digest key) =
            some (Text.utf8 file.script.toList) := by
  induction run with
  | stop => exact ⟨confined_refl _ _, fun _ _ => Or.inl rfl⟩
  | make made _ ih =>
    have before := starting_effect made
    obtain ⟨confined, held⟩ := ih (placed_of_confined placed before) plain
    refine ⟨confined_trans (confined_mono before (by simp)) confined, fun key lasting => ?_⟩
    rw [← before.elsewhere _ id]
    exact held key lasting
  | pass there _ ih =>
    obtain ⟨confined, held⟩ := ih placed (fun entry among => plain entry (by simp [among]))
    refine ⟨confined, fun key lasting => ?_⟩
    rcases held key lasting with same | ⟨file, among, own⟩
    · exact Or.inl same
    · exact Or.inr ⟨file, List.mem_cons_of_mem _ among, own⟩
  | @write _ _ _ _ key file whole _ ih =>
    obtain ⟨before, first⟩ := source_effect placed (plain (key, file) (by simp)) whole
    obtain ⟨confined, held⟩ := ih (placed_of_confined placed before)
      (fun entry among => plain entry (by simp [among]))
    refine ⟨confined_trans before confined, fun other lasting => ?_⟩
    rcases held other lasting with same | ⟨file', among, own⟩
    · rw [same]
      rcases first other lasting with same | ⟨-, rfl, own⟩
      · exact Or.inl same
      · exact Or.inr ⟨file, by simp, own⟩
    · exact Or.inr ⟨file', List.mem_cons_of_mem _ among, own⟩
  | @cut _ _ _ key file stage part unmoved =>
    obtain ⟨confined, held⟩ := source_effect placed (plain (key, file) (by simp)) part
    refine ⟨confined, fun other lasting => ?_⟩
    rcases held other lasting with same | ⟨moved, -⟩
    · exact Or.inl same
    · exact absurd moved unmoved

end Effects

end ContractBuild.SourcesWritten
