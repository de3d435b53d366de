import ContractBuild.Proofs.CompileSteps
import ContractBuild.Proofs.DetourRoot
import ContractBuild.Proofs.WriterSteps
import Mathlib.Logic.Function.Basic

/-! Any number of writers of one artifact, in any number of processes, whose steps come in any order
and who may stop anywhere. Each has a temporary file of its own, so the file of the artifact is only
ever touched by moving a whole artifact into its place: whoever reads it finds what was there before
all writers, or the artifact of the writer that moved its file last. -/
namespace ContractBuild.ConcurrentWriters
open ArtifactFile CacheChange CachePlace CacheRoom CompileSteps DetourRoot FileTree MovedFiles PathRoute
open PathWalk StoredForms WriterSteps WrittenFiles

section Traffic

/-- A call that writes an artifact. -/
structure Writer where
  /-- The number of the process that makes the call. -/
  process : Nat
  artifact : Artifact
  stage : Stage
  /-- Whether its process is still there. -/
  live : Bool

/-- What a writer of an artifact is to do. -/
def Writer.job (cache : Cache) (digest : Digest) (name : String) (writer : Writer) : Job :=
  ⟨cache.directory digest, name, writer.artifact.encode⟩

/-- The files, the processes that work on them, and the calls that they have made. -/
structure Traffic where
  files : FileTree
  here : Location
  /-- How many temporary names each process has given out. -/
  issued : Nat → Nat
  writers : Nat → Option Writer

/-- What a process sees. -/
def Traffic.view (traffic : Traffic) (process : Nat) : Workspace :=
  ⟨traffic.files, traffic.here, process, traffic.issued process⟩

/-- The traffic where no process has called yet, and each sees a workspace. -/
def Traffic.idle (w : Workspace) : Traffic := ⟨w.files, w.here, fun _ => w.issued, fun _ => none⟩

/-- The traffic after a writer has changed what its process sees. -/
def Traffic.after (traffic : Traffic) (writer : Nat) (w : Workspace) (call : Writer) : Traffic :=
  { traffic with
    files := w.files
    issued := Function.update traffic.issued w.process w.issued
    writers := Function.update traffic.writers writer (some call) }

/-- Where a walk ended. -/
def endOf : Spot → Location
  | .taken location _ => location
  | .free location _ => location

/-- What a handle refers to after a file has been moved from one location to another. -/
def followed (source target : Location) (handle : Option Location) : Option Location :=
  handle.bind fun location =>
    if location = source then some target
    else if location = target then none
    else some location

/-- A writer after another one has moved a file. -/
def Writer.following (source target : Location) (writer : Writer) : Writer :=
  match writer.stage with
  | .opened number handle written =>
    { writer with stage := .opened number (followed source target handle) written }
  | _ => writer

/-- The traffic after a file has been moved: those that have it open follow it. -/
def Traffic.following (traffic : Traffic) (source target : Location) : Traffic :=
  { traffic with
    writers := fun writer => (traffic.writers writer).map (Writer.following source target) }

/-- The traffic after a process has called for an artifact to be written. -/
def Traffic.calling (traffic : Traffic) (writer process : Nat) (artifact : Artifact) : Traffic :=
  { traffic with
    writers := Function.update traffic.writers writer (some ⟨process, artifact, .starting, true⟩) }

/-- The traffic after a process has ended, and with it all its calls. A process that is given its
number later gives out names from the start. -/
def Traffic.ending (traffic : Traffic) (process : Nat) : Traffic :=
  { traffic with
    issued := Function.update traffic.issued process 0
    writers := fun writer => (traffic.writers writer).map fun call =>
      if call.process = process then { call with live := false } else call }

/-- What happens: a process calls for an artifact to be written, a writer takes a step, the last step
moves its file into place, and a process ends, so that its number may be given to another. -/
inductive Event where
  | called (writer : Nat)
  | stepped (writer : Nat)
  | moved (writer : Nat) (artifact : Artifact)
  | ended (process : Nat)

/-- How the traffic goes on. A writer of a process that has ended does nothing any more. -/
inductive Step (cache : Cache) (digest : Digest) (name : String) : Traffic → Event → Traffic → Prop
    where
  | call {traffic : Traffic} {writer : Nat} (new : traffic.writers writer = none) (process : Nat)
      (artifact : Artifact) :
      Step cache digest name traffic (.called writer) (traffic.calling writer process artifact)
  | step {traffic : Traffic} {writer : Nat} {call : Writer} {w : Workspace} {stage : Stage}
      (calls : traffic.writers writer = some call) (live : call.live = true)
      (advance : Advance (call.job cache digest name) (traffic.view call.process, call.stage)
        (w, stage))
      (unmoved : stage ≠ .moved) :
      Step cache digest name traffic (.stepped writer)
        (traffic.after writer w { call with stage })
  | move {traffic : Traffic} {writer : Nat} {call : Writer} {w : Workspace} {number written : Nat}
      {handle : Option Location} {source : Location} {node : Node} {spot : Spot}
      (calls : traffic.writers writer = some call) (live : call.live = true)
      (opened : call.stage = .opened number handle written)
      (advance : Advance (call.job cache digest name) (traffic.view call.process, call.stage)
        (w, .moved))
      (old : traffic.files.lookup traffic.here
        ((call.job cache digest name).hidden call.process number) = .ok (source, node))
      (new : traffic.files.find false traffic.here (call.job cache digest name).file = .ok spot) :
      Step cache digest name traffic (.moved writer call.artifact)
        ((traffic.following source (endOf spot)).after writer w { call with stage := .moved })
  | finish {traffic : Traffic} (process : Nat) :
      Step cache digest name traffic (.ended process) (traffic.ending process)

/-- A run: what has happened since the start, and the traffic that it has led to. -/
inductive Run (cache : Cache) (digest : Digest) (name : String) (start : Traffic) :
    Traffic → List Event → Prop where
  | start : Run cache digest name start start []
  | on {now next : Traffic} {events : List Event} {event : Event}
      (run : Run cache digest name start now events) (step : Step cache digest name now event next) :
      Run cache digest name start next (events ++ [event])

/-- The artifacts that have been moved into place, in order. -/
def published (events : List Event) : List Artifact :=
  events.filterMap fun
    | .moved _ artifact => some artifact
    | _ => none

end Traffic

section Names
variable {cache : Cache} {digest : Digest} {name : String} {traffic next : Traffic} {event : Event}

private theorem updated_iff {writers : Nat → Option Writer} {writer other : Nat}
    {call call' : Writer} :
    Function.update writers writer (some call) other = some call' ↔
      (other = writer ∧ call = call') ∨ (other ≠ writer ∧ writers other = some call') := by
  by_cases same : other = writer
  · simp [same]
  · simp [same, Function.update_of_ne]

/-- The number of the temporary name that a writer uses. -/
def numberOf : Stage → Option Nat
  | .named number => some number
  | .opened number _ _ => some number
  | _ => none

/-- A writer whose process is there uses the temporary name that its process gave out as this
number. -/
def Uses (traffic : Traffic) (writer process number : Nat) : Prop :=
  ∃ call, traffic.writers writer = some call ∧ call.live = true ∧ call.process = process ∧
    numberOf call.stage = some number

/-- Every temporary name in use was given out, and no two writers use one. -/
structure Numbered (traffic : Traffic) : Prop where
  below : ∀ {writer process number}, Uses traffic writer process number →
    number < traffic.issued process
  apart : ∀ {writer other process number}, Uses traffic writer process number →
    Uses traffic other process number → writer = other

/-- A writer goes on using its name, or is given the next one of its process. -/
theorem advance_number {job : Job} {w after : Workspace} {stage stage' : Stage}
    (step : Advance job (w, stage) (after, stage')) :
    after.process = w.process ∧ after.here = w.here ∧
      ((after.issued = w.issued ∧ ∀ number, numberOf stage' = some number →
          numberOf stage = some number) ∨
        (after.issued = w.issued + 1 ∧ numberOf stage' = some w.issued)) := by
  cases step with
  | makeDirectory => exact ⟨rfl, rfl, Or.inl ⟨rfl, fun _ same => same⟩⟩
  | name => exact ⟨rfl, rfl, Or.inr ⟨rfl, rfl⟩⟩
  | create => exact ⟨rfl, rfl, Or.inl ⟨rfl, fun _ same => same⟩⟩
  | extend => exact ⟨rfl, rfl, Or.inl ⟨rfl, fun _ same => same⟩⟩
  | move => exact ⟨rfl, rfl, Or.inl ⟨rfl, by simp [numberOf]⟩⟩

theorem following_keeps (source target : Location) (call : Writer) :
    (call.following source target).process = call.process ∧
      (call.following source target).artifact = call.artifact ∧
      (call.following source target).live = call.live ∧
      numberOf (call.following source target).stage = numberOf call.stage := by
  unfold Writer.following
  split
  · rename_i number handle written opened
    simp [opened, numberOf]
  · simp

/-- What a writer's own step does to the names in use: one that is in use was so before, or the
process has just given it out to this writer. -/
private theorem uses_after (traffic : Traffic) {writer : Nat} {w : Workspace} (call : Writer)
    (own : w.process = call.process)
    (number : (w.issued = traffic.issued call.process ∧
        ∀ number, numberOf call.stage = some number → Uses traffic writer call.process number) ∨
      (w.issued = traffic.issued call.process + 1 ∧
        numberOf call.stage = some (traffic.issued call.process)))
    {other process number' : Nat} (uses : Uses (traffic.after writer w call) other process number') :
    (Uses traffic other process number' ∧
        traffic.issued process ≤ (traffic.after writer w call).issued process) ∨
      (other = writer ∧ number' = traffic.issued process ∧
        (traffic.after writer w call).issued process = number' + 1) := by
  obtain ⟨call', calls', live, rfl, named⟩ := uses
  have grows : ∀ process, traffic.issued process ≤
      Function.update traffic.issued w.process w.issued process := by
    intro process
    by_cases same : process = w.process
    · rw [same, Function.update_self, own]
      rcases number with ⟨issued, -⟩ | ⟨issued, -⟩ <;> omega
    · rw [Function.update_of_ne same]
  rcases updated_iff.mp calls' with ⟨rfl, rfl⟩ | ⟨-, held⟩
  · rcases number with ⟨-, kept⟩ | ⟨issued, given⟩
    · exact Or.inl ⟨kept number' named, grows _⟩
    · obtain rfl := Option.some.inj (given.symm.trans named)
      exact Or.inr ⟨rfl, rfl, by simp [Traffic.after, own, issued]⟩
  · exact Or.inl ⟨⟨call', held, live, rfl, named⟩, grows _⟩

private theorem uses_following {source target : Location} {writer process number : Nat}
    (uses : Uses (traffic.following source target) writer process number) :
    Uses traffic writer process number := by
  obtain ⟨call, calls, live, own, named⟩ := uses
  obtain ⟨before, called, rfl⟩ := Option.map_eq_some_iff.mp calls
  obtain ⟨same, -, alive, number⟩ := following_keeps source target before
  exact ⟨before, called, alive ▸ live, same ▸ own, number ▸ named⟩

private theorem uses_ending {ended writer process number : Nat}
    (uses : Uses (traffic.ending ended) writer process number) :
    Uses traffic writer process number ∧
      traffic.issued process ≤ (traffic.ending ended).issued process := by
  obtain ⟨call, calls, live, own, named⟩ := uses
  obtain ⟨before, called, rfl⟩ := Option.map_eq_some_iff.mp calls
  split at live
  · cases live
  · rename_i other
    simp only [other, ↓reduceIte] at own named
    refine ⟨⟨before, called, live, own, named⟩, ?_⟩
    simp [Traffic.ending, own ▸ other]

/-- What a step does to the names in use: one that is in use was so before, or its process has just
given it out to the writer that took the step. -/
private theorem uses_step (step : Step cache digest name traffic event next) :
    ∃ actor, ∀ {writer process number}, Uses next writer process number →
      (Uses traffic writer process number ∧ traffic.issued process ≤ next.issued process) ∨
        (writer = actor ∧ number = traffic.issued process ∧
          next.issued process = number + 1) := by
  cases step with
  | @call writer new process artifact =>
    refine ⟨writer, fun {other process' number} uses => Or.inl ?_⟩
    obtain ⟨call, calls, live, own, named⟩ := uses
    rcases updated_iff.mp calls with ⟨-, rfl⟩ | ⟨-, held⟩
    · cases named
    · exact ⟨⟨call, held, live, own, named⟩, Nat.le_refl _⟩
  | @step writer call w stage calls live advance unmoved =>
    obtain ⟨own, -, number⟩ := advance_number advance
    refine ⟨writer, fun uses => uses_after traffic { call with stage } own ?_ uses⟩
    rcases number with ⟨issued, kept⟩ | given
    · exact Or.inl ⟨issued, fun number named => ⟨call, calls, live, rfl, kept number named⟩⟩
    · exact Or.inr given
  | @move writer call w number written handle source node spot calls live opened advance old new =>
    obtain ⟨own, -, ⟨issued, -⟩ | ⟨-, given⟩⟩ := advance_number advance
    · refine ⟨writer, fun uses => ?_⟩
      rcases uses_after (traffic.following source (endOf spot)) { call with stage := .moved } own
        (Or.inl ⟨issued, by simp [numberOf]⟩) uses with ⟨before, grows⟩ | given
      · exact Or.inl ⟨uses_following before, grows⟩
      · exact Or.inr given
    · cases given
  | finish process => exact ⟨0, fun uses => Or.inl (uses_ending uses)⟩

/-- No step lets two writers use one name. -/
theorem numbered_step (numbered : Numbered traffic)
    (step : Step cache digest name traffic event next) : Numbered next := by
  obtain ⟨actor, uses_before⟩ := uses_step step
  constructor
  · intro writer process number uses
    rcases uses_before uses with ⟨uses, grows⟩ | ⟨-, -, issued⟩
    · exact Nat.lt_of_lt_of_le (numbered.below uses) grows
    · omega
  · intro writer other process number uses uses'
    rcases uses_before uses with ⟨uses, -⟩ | ⟨rfl, given, -⟩
    · rcases uses_before uses' with ⟨uses', -⟩ | ⟨-, given, -⟩
      · exact numbered.apart uses uses'
      · have below := numbered.below uses
        omega
    · rcases uses_before uses' with ⟨uses', -⟩ | ⟨rfl, -, -⟩
      · have below := numbered.below uses'
        omega
      · rfl

end Names

section Storage
variable {cache : Cache} {digest : Digest} {name : String} {place : Location}
  {start now next : Traffic} {event : Event} {events : List Event}

/-- The locations of the temporary files of an artifact. -/
def Scratch (place : Location) (digest : Digest) (name : String) (location : Location) : Prop :=
  ∃ process number, location = artifactPlace place digest (hiddenName name process number)

/-- Every writer whose process is there has a right idea of the file that it has open. -/
def Kept (cache : Cache) (place : Location) (digest : Digest) (name : String) (now : Traffic) : Prop :=
  ∀ writer call, now.writers writer = some call → call.live = true →
    Holds place [digest.toHex] (call.job cache digest name) call.process now.files call.stage

theorem placed_view {reader other : Nat} (placed : Placed cache place (now.view reader)) :
    Placed cache place (now.view other) :=
  placed_of_same_links _ placed (fun _ _ => Iff.rfl) rfl

theorem job_inside (plain : Plain name) (cache : Cache) (digest : Digest) (call : Writer) :
    Inside cache [digest.toHex] (call.job cache digest name) :=
  ⟨rfl, directory_plain digest, plain⟩

/-- What a step does to files. Moving a file gives the artifact's file a whole content and makes it
readable; every other step changes temporary files only. -/
theorem step_effect (placed : ∀ reader, Placed cache place (now.view reader)) (plain : Plain name)
    (kept : Kept cache place digest name now) (step : Step cache digest name now event next)
    (reader : Nat) :
    Confined (fun location => Scratch place digest name location ∨
        ∃ writer artifact, event = .moved writer artifact ∧
          location = artifactPlace place digest name) (now.view reader) (next.view reader) ∧
      ∀ writer artifact, event = .moved writer artifact →
        contentAt? next.files (artifactPlace place digest name) = some artifact.encode ∧
          (next.view reader).read (cache.file digest name) = .ok artifact.encode := by
  cases step with
  | call => exact ⟨⟨rfl, rfl, fun _ _ => Iff.rfl, keeps_ways_refl _, fun _ _ => rfl⟩, by simp⟩
  | @step writer call w stage calls live advance unmoved =>
    obtain ⟨-, confined⟩ := advance_keeps (placed call.process) (job_inside plain cache digest call)
      (kept writer call calls live) advance unmoved
    refine ⟨⟨rfl, rfl, confined.links, confined.ways, fun location apart => ?_⟩, by simp⟩
    refine confined.elsewhere location fun touched => apart (Or.inl ?_)
    rcases reaches_of_touches touched with ⟨number, own⟩ | ⟨moved, -⟩
    · exact ⟨call.process, number, own⟩
    · exact absurd moved unmoved
  | @move writer call w number written handle source node spot calls live opened advance old new =>
    obtain ⟨number, -, confined, content, -, read⟩ := advance_moves (placed call.process)
      (job_inside plain cache digest call) (kept writer call calls live) advance
    refine ⟨⟨rfl, rfl, confined.links, confined.ways, fun location apart => ?_⟩, ?_⟩
    · refine confined.elsewhere location ?_
      rintro (own | final)
      · exact apart (Or.inl ⟨call.process, number, own⟩)
      · exact apart (Or.inr ⟨writer, call.artifact, rfl, final⟩)
    · rintro _ _ ⟨⟩
      refine ⟨content, ?_⟩
      have here : (now.view reader).here = w.here := confined.here.symm
      simp only [Workspace.read] at read ⊢
      rw [← here] at read
      exact read
  | finish => exact ⟨⟨rfl, rfl, fun _ _ => Iff.rfl, keeps_ways_refl _, fun _ _ => rfl⟩, by simp⟩

/-- Two temporary files of an artifact are in one location only if they have one number in one
process. -/
theorem scratch_apart {process number process' number' : Nat}
    (same : artifactPlace place digest (hiddenName name process number) =
      artifactPlace place digest (hiddenName name process' number')) :
    process = process' ∧ number = number' := by
  simp only [artifactPlace, List.append_cancel_left_eq, List.cons.injEq, and_true, true_and] at same
  exact hidden_name_injective same

private theorem touches_number {front : List String} {job : Job} {process : Nat} {stage : Stage}
    {location : Location} (touched : stage.Touches place front job process location) :
    ∃ number, numberOf stage = some number ∧
      location = hiddenPlace place front job process number := by
  cases stage with
  | opened number handle written => exact ⟨number, rfl, touched⟩
  | starting => cases touched
  | named number => cases touched
  | moved => cases touched

private theorem ends_at_child {tree : FileTree} {location : Location} {spot : Spot}
    (child : AtChild tree location spot) : endOf spot = location := by
  cases child <;> rfl

/-- What another writer does leaves a writer's idea of its file right. -/
private theorem holds_of_confined {changed : Location → Prop} {w after : Workspace} {call : Writer}
    (confined : Confined changed w after)
    (apart : ∀ number, numberOf call.stage = some number →
      ¬ changed (artifactPlace place digest (hiddenName name call.process number)))
    (holds : Holds place [digest.toHex] (call.job cache digest name) call.process w.files
      call.stage) :
    Holds place [digest.toHex] (call.job cache digest name) call.process after.files call.stage := by
  generalize reached : call.stage = stage at apart holds ⊢
  cases stage with
  | opened number handle written =>
    obtain ⟨own, enough, content⟩ := holds
    exact ⟨own, enough, (confined.elsewhere _ (apart number rfl)).trans content⟩
  | starting => trivial
  | named number => trivial
  | moved => trivial

/-- A writer whose file is not the one that is moved, and not the one in whose place this comes, goes
on with the same handle. -/
private theorem following_same {source target : Location} {call : Writer} {files : FileTree}
    (holds : Holds place [digest.toHex] (call.job cache digest name) call.process files call.stage)
    (apart : ∀ number, numberOf call.stage = some number →
      artifactPlace place digest (hiddenName name call.process number) ≠ source ∧
        artifactPlace place digest (hiddenName name call.process number) ≠ target) :
    call.following source target = call := by
  obtain ⟨process, artifact, stage, live⟩ := call
  cases stage with
  | opened number handle written =>
    obtain ⟨own, -, -⟩ := holds
    change handle = some (artifactPlace place digest (hiddenName name process number)) at own
    obtain ⟨first, second⟩ := apart number rfl
    have kept : followed source target handle = handle := by
      simp only [own, followed, Option.bind_some, first, second, ↓reduceIte]
    simp only [Writer.following, kept]
  | starting => rfl
  | named number => rfl
  | moved => rfl

/-- After a writer has written on, each writer still has a right idea of its file: the others have
other files. -/
private theorem kept_written (placed : ∀ reader, Placed cache place (now.view reader))
    (plain : Plain name) (kept : Kept cache place digest name now) {writer : Nat} {call : Writer}
    {w : Workspace} {stage : Stage} (calls : now.writers writer = some call)
    (live : call.live = true)
    (advance : Advance (call.job cache digest name) (now.view call.process, call.stage) (w, stage))
    (unmoved : stage ≠ .moved) (numbered : Numbered (now.after writer w { call with stage })) :
    Kept cache place digest name (now.after writer w { call with stage }) := by
  obtain ⟨holds, confined⟩ := advance_keeps (placed call.process)
    (job_inside plain cache digest call) (kept writer call calls live) advance unmoved
  intro other call' calls' live'
  rcases updated_iff.mp calls' with ⟨-, rfl⟩ | ⟨different, held⟩
  · exact holds
  · refine holds_of_confined confined (fun number named touched => different ?_)
      (kept other call' held live')
    obtain ⟨number', named', location⟩ := touches_number touched
    obtain ⟨processes, rfl⟩ := scratch_apart location
    have uses : Uses (now.after writer w { call with stage }) writer call'.process number :=
      ⟨{ call with stage }, by simp [Traffic.after], live, processes.symm, named'⟩
    exact numbered.apart ⟨call', calls', live', rfl, named⟩ uses

/-- After a writer has moved its file, each writer still has a right idea of its file: no other file is
moved, and none was in the place that the file was moved to. -/
private theorem kept_moved (placed : ∀ reader, Placed cache place (now.view reader))
    (plain : Plain name) (numbered : Numbered now) (kept : Kept cache place digest name now)
    {writer : Nat} {call : Writer} {w : Workspace} {number written : Nat}
    {handle : Option Location} {source : Location} {node : Node} {spot : Spot}
    (calls : now.writers writer = some call) (live : call.live = true)
    (opened : call.stage = .opened number handle written)
    (advance : Advance (call.job cache digest name) (now.view call.process, call.stage) (w, .moved))
    (old : now.files.lookup now.here ((call.job cache digest name).hidden call.process number) =
      .ok (source, node))
    (new : now.files.find false now.here (call.job cache digest name).file = .ok spot) :
    Kept cache place digest name
      ((now.following source (endOf spot)).after writer w { call with stage := .moved }) := by
  obtain ⟨number', opened', confined, -⟩ := advance_moves (placed call.process)
    (job_inside plain cache digest call) (kept writer call calls live) advance
  have uses : Uses now writer call.process number' :=
    ⟨call, calls, live, rfl, by rw [opened']; rfl⟩
  obtain ⟨rfl, -, -⟩ := Stage.opened.inj (opened.symm.trans opened')
  obtain rfl : source = artifactPlace place digest (hiddenName name call.process number) :=
    ends_at_child (find_in_cache (placed call.process) (temporary_plain plain _ _).1
      (find_of_lookup old))
  have target : endOf spot = artifactPlace place digest name :=
    ends_at_child (find_in_cache (placed call.process) plain new)
  rw [target]
  intro other call' calls' live'
  rcases updated_iff.mp calls' with ⟨-, rfl⟩ | ⟨different, follows⟩
  · trivial
  · obtain ⟨before, held, rfl⟩ := Option.map_eq_some_iff.mp follows
    have alive : before.live = true := by rwa [(following_keeps ..).2.2.1] at live'
    have holds := kept other before held alive
    have apart : ∀ number', numberOf before.stage = some number' →
        artifactPlace place digest (hiddenName name before.process number') ≠
            artifactPlace place digest (hiddenName name call.process number) ∧
          artifactPlace place digest (hiddenName name before.process number') ≠
            artifactPlace place digest name := by
      intro number' named
      refine ⟨fun location => different ?_, artifact_names_apart place digest
        (temporary_plain plain _ _).2⟩
      obtain ⟨processes, rfl⟩ := scratch_apart location
      exact numbered.apart ⟨before, held, alive, processes, named⟩ uses
    rw [following_same holds apart]
    apply holds_of_confined confined _ holds
    rintro number' named (own | final)
    · exact (apart number' named).1 own
    · exact (apart number' named).2 final

/-- After every step each writer still has a right idea of its file. -/
theorem kept_step (placed : ∀ reader, Placed cache place (now.view reader)) (plain : Plain name)
    (numbered : Numbered now) (kept : Kept cache place digest name now)
    (step : Step cache digest name now event next) : Kept cache place digest name next := by
  have numbered' := numbered_step numbered step
  cases step with
  | call new process artifact =>
    intro other call' calls' live'
    rcases updated_iff.mp calls' with ⟨-, rfl⟩ | ⟨-, held⟩
    · trivial
    · exact kept other call' held live'
  | step calls live advance unmoved =>
    exact kept_written placed plain kept calls live advance unmoved numbered'
  | move calls live opened advance old new =>
    exact kept_moved placed plain numbered kept calls live opened advance old new
  | finish process =>
    intro other call' calls' live'
    obtain ⟨before, called, rfl⟩ := Option.map_eq_some_iff.mp calls'
    split at live'
    · cases live'
    · rename_i other'
      simp only [other', ↓reduceIte]
      exact kept other before called live'

end Storage

section Runs
variable {cache : Cache} {digest : Digest} {name : String} {place : Location}
  {start now next : Traffic} {event : Event} {events : List Event} {artifact : Artifact}

/-- A writer has moved an artifact into its place. -/
def HasMoved (now : Traffic) (artifact : Artifact) : Prop :=
  ∃ writer call, now.writers writer = some call ∧ call.stage = .moved ∧ call.artifact = artifact

theorem following_moved (source target : Location) (call : Writer) :
    (call.following source target).stage = .moved ↔ call.stage = .moved := by
  unfold Writer.following
  split
  · rename_i opened
    simp [opened]
  · rfl

/-- A writer that took a step had not moved its file, and the others have moved theirs exactly if they
had before. -/
private theorem has_moved_after {writer : Nat} {call before : Writer} {w : Workspace}
    (calls : now.writers writer = some before) (unmoved : before.stage ≠ .moved) :
    HasMoved (now.after writer w call) artifact ↔
      HasMoved now artifact ∨ call.stage = .moved ∧ call.artifact = artifact := by
  constructor
  · rintro ⟨other, call', calls', moved, rfl⟩
    rcases updated_iff.mp calls' with ⟨-, rfl⟩ | ⟨-, held⟩
    · exact Or.inr ⟨moved, rfl⟩
    · exact Or.inl ⟨other, call', held, moved, rfl⟩
  · rintro (⟨other, call', held, moved, rfl⟩ | ⟨moved, rfl⟩)
    · refine ⟨other, call', updated_iff.mpr (Or.inr ⟨?_, held⟩), moved, rfl⟩
      rintro rfl
      obtain rfl := Option.some.inj (calls.symm.trans held)
      exact unmoved moved
    · exact ⟨writer, call, updated_iff.mpr (Or.inl ⟨rfl, rfl⟩), moved, rfl⟩

private theorem has_moved_following {source target : Location} :
    HasMoved (now.following source target) artifact ↔ HasMoved now artifact := by
  constructor
  · rintro ⟨writer, call, calls, moved, rfl⟩
    obtain ⟨before, held, rfl⟩ := Option.map_eq_some_iff.mp calls
    exact ⟨writer, before, held, (following_moved ..).mp moved, (following_keeps ..).2.1.symm⟩
  · rintro ⟨writer, call, held, moved, rfl⟩
    exact ⟨writer, _, Option.map_eq_some_iff.mpr ⟨call, held, rfl⟩, (following_moved ..).mpr moved,
      (following_keeps ..).2.1⟩

/-- No step comes after the last one. -/
theorem advance_from {job : Job} {w after : Workspace} {stage stage' : Stage}
    (step : Advance job (w, stage) (after, stage')) : stage ≠ .moved := by
  rintro rfl
  cases step

theorem moved_of_advance {job : Job} {w after : Workspace} {stage : Stage}
    (step : Advance job (w, stage) (after, .moved)) :
    ∃ number handle, stage = .opened number handle job.content.length ∧ ∃ files,
      w.files.moveFile w.here (job.hidden w.process number) job.file = .ok files := by
  cases step with
  | @move _ number handle files moved => exact ⟨number, handle, rfl, files, moved⟩

/-- Writers have moved what they had moved before a step, and what the step moves. -/
theorem has_moved_step (step : Step cache digest name now event next) :
    HasMoved next artifact ↔ HasMoved now artifact ∨ ∃ writer, event = .moved writer artifact := by
  cases step with
  | @call writer new process written =>
    simp only [reduceCtorEq, exists_false, or_false]
    constructor
    · rintro ⟨other, call, calls, moved, rfl⟩
      rcases updated_iff.mp calls with ⟨-, rfl⟩ | ⟨-, held⟩
      · cases moved
      · exact ⟨other, call, held, moved, rfl⟩
    · rintro ⟨other, call, held, moved, rfl⟩
      refine ⟨other, call, updated_iff.mpr (Or.inr ⟨?_, held⟩), moved, rfl⟩
      rintro rfl
      cases new.symm.trans held
  | @step writer call w stage calls live advance unmoved =>
    rw [has_moved_after calls (advance_from advance)]
    simp [unmoved]
  | @move writer call w number written handle source node spot calls live opened advance old new =>
    have calls' : (now.following source (endOf spot)).writers writer = some _ :=
      Option.map_eq_some_iff.mpr ⟨call, calls, rfl⟩
    rw [has_moved_after calls' (by simp [following_moved, opened]), has_moved_following]
    simp
  | finish process =>
    simp only [reduceCtorEq, exists_false, or_false]
    constructor
    · rintro ⟨other, call, calls, moved, rfl⟩
      obtain ⟨before, held, rfl⟩ := Option.map_eq_some_iff.mp calls
      exact ⟨other, before, held, by split at moved <;> exact moved, by split <;> rfl⟩
    · rintro ⟨other, call, held, moved, rfl⟩
      exact ⟨other, _, Option.map_eq_some_iff.mpr ⟨call, held, rfl⟩, by split <;> exact moved,
        by split <;> rfl⟩

theorem published_append (events events' : List Event) :
    published (events ++ events') = published events ++ published events' := by
  simp [published]

theorem mem_published_concat : artifact ∈ published (events ++ [event]) ↔
    artifact ∈ published events ∨ ∃ writer, event = .moved writer artifact := by
  cases event <;> simp [published, eq_comm]

/-- An event moves an artifact into its place or publishes nothing. -/
theorem published_single (event : Event) :
    (∃ writer artifact, event = .moved writer artifact ∧ published [event] = [artifact]) ∨
      (published [event] = [] ∧ ∀ writer artifact, event ≠ .moved writer artifact) := by
  cases event <;> simp [published]

/-- What holds throughout a run. -/
structure Orderly (cache : Cache) (place : Location) (digest : Digest) (name : String)
    (start now : Traffic) (events : List Event) : Prop where
  numbered : Numbered now
  kept : Kept cache place digest name now
  confined : ∀ reader, Confined (fun location => Scratch place digest name location ∨
    location = artifactPlace place digest name) (start.view reader) (now.view reader)
  listed : ∀ artifact, artifact ∈ published events ↔ HasMoved now artifact
  /-- Until a file is moved, the artifact's file has what it had at the start. -/
  untouched : published events = [] →
    contentAt? now.files (artifactPlace place digest name) =
      contentAt? start.files (artifactPlace place digest name)
  /-- Then it has the artifact that was moved last, and is found. -/
  latest : ∀ artifact, (published events).getLast? = some artifact →
    contentAt? now.files (artifactPlace place digest name) = some artifact.encode ∧
      ∀ reader, (now.view reader).read (cache.file digest name) = .ok artifact.encode

theorem orderly_start (idle : ∀ writer, start.writers writer = none) :
    Orderly cache place digest name start start [] where
  numbered :=
    ⟨fun ⟨_, calls, _⟩ => by simp [idle] at calls, fun ⟨_, calls, _⟩ => by simp [idle] at calls⟩
  kept writer call calls := by simp [idle] at calls
  confined reader := confined_refl _ _
  listed artifact := by simp [published, HasMoved, idle]
  untouched _ := rfl
  latest := by simp [published]

theorem orderly_step (placed : ∀ reader, Placed cache place (start.view reader)) (plain : Plain name)
    (orderly : Orderly cache place digest name start now events)
    (step : Step cache digest name now event next) :
    Orderly cache place digest name start next (events ++ [event]) := by
  have placed_now := fun reader => placed_of_confined (placed reader) (orderly.confined reader)
  have effect := step_effect placed_now plain orderly.kept step
  have same : (∀ writer artifact, event ≠ .moved writer artifact) →
      contentAt? next.files (artifactPlace place digest name) =
        contentAt? now.files (artifactPlace place digest name) := by
    intro unmoved
    refine (effect 0).1.elsewhere _ ?_
    rintro (⟨process, number, scratch⟩ | ⟨writer, artifact, moved, -⟩)
    · exact artifact_names_apart place digest (temporary_plain plain process number).2 scratch.symm
    · exact unmoved writer artifact moved
  refine ⟨numbered_step orderly.numbered step,
    kept_step placed_now plain orderly.numbered orderly.kept step, fun reader => ?_,
    fun artifact => ?_, fun none => ?_, fun artifact last => ?_⟩
  · refine confined_trans (orderly.confined reader) (confined_mono (effect reader).1 ?_)
    rintro location (scratch | ⟨-, -, -, final⟩)
    · exact Or.inl scratch
    · exact Or.inr final
  · rw [mem_published_concat, orderly.listed, has_moved_step step]
  · rw [published_append, List.append_eq_nil_iff] at none
    rcases published_single event with ⟨_, _, _, moved⟩ | ⟨-, unmoved⟩
    · simp [moved] at none
    · rw [← orderly.untouched none.1]
      exact same unmoved
  · rw [published_append] at last
    rcases published_single event with ⟨writer, moved, rfl, only⟩ | ⟨nothing, unmoved⟩
    · rw [only, List.getLast?_concat] at last
      obtain rfl := Option.some.inj last
      exact ⟨((effect 0).2 writer moved rfl).1, fun reader => ((effect reader).2 writer moved rfl).2⟩
    · rw [nothing, List.append_nil] at last
      obtain ⟨content, read⟩ := orderly.latest artifact last
      have content' := (same unmoved).trans content
      exact ⟨content', fun reader => read_later (placed_now reader) (effect reader).1 (by simp)
        (artifact_plain digest plain) (read reader) content'⟩

theorem orderly_run (placed : ∀ reader, Placed cache place (start.view reader)) (plain : Plain name)
    (idle : ∀ writer, start.writers writer = none)
    (run : Run cache digest name start now events) :
    Orderly cache place digest name start now events := by
  induction run with
  | start => exact orderly_start idle
  | on run step ih => exact orderly_step placed plain ih step

/-- In a cache whose root is not a link itself and has no links below it, however the steps of writers
of one artifact come, with a plain name, and wherever writers stop: until one of them has moved its
file, a read answers what it answered before them, unless the path of the file led nowhere then,
although there was one; a writer may make the directory that was missing on the way, and the read may
answer this file. From then on it answers the artifact of the writer that moved its file last. (An
artifact whose header is too long for its length field is not read at all.) If all writers have come to
their end, the last one of them is such a writer. -/
theorem reads_whole_artifact {reader : Nat} (placed : Placed cache place (start.view reader))
    (plain : Plain name) (idle : ∀ writer, start.writers writer = none)
    (run : Run cache digest name start now events) :
    (published events = [] →
      cache.readArtifact? (now.view reader) digest name =
          cache.readArtifact? (start.view reader) digest name ∨
        (∀ content, (start.view reader).read (cache.file digest name) ≠ .ok content) ∧
          ∃ content, contentAt? start.files (artifactPlace place digest name) = some content ∧
            cache.readArtifact? (now.view reader) digest name = Artifact.decode? content) ∧
    (∀ artifact, (published events).getLast? = some artifact → HasMoved now artifact ∧
      (cache.readArtifact? (now.view reader) digest name = some artifact ∨
        cache.readArtifact? (now.view reader) digest name = none ∧ ¬ HeaderFits artifact)) ∧
    ((∃ writer call, now.writers writer = some call) →
      (∀ writer call, now.writers writer = some call → call.stage = .moved) →
        published events ≠ []) := by
  have orderly := orderly_run (fun _ => placed_view placed) plain idle run
  refine ⟨fun none => ?_, fun artifact last => ⟨?_, ?_⟩, fun ⟨writer, call, calls⟩ done none => ?_⟩
  · have same := orderly.untouched none
    exact read_of_same (placed_of_confined placed (orderly.confined reader)) plain same
      fun _ => found_of_confined placed plain (orderly.confined reader) same
  · exact (orderly.listed artifact).mp (List.mem_of_getLast? last)
  · have read := (orderly.latest artifact last).2 reader
    rw [read_artifact_of_read read]
    cases decoded : Artifact.decode? artifact.encode with
    | some found => exact Or.inl (congrArg some (decode_encode decoded))
    | none => exact Or.inr ⟨rfl, fun fits => by cases decoded.symm.trans (decode_written fits)⟩
  · have among := (orderly.listed call.artifact).mpr ⟨writer, call, calls, done writer call calls, rfl⟩
    simp [none] at among

end Runs

section Lone
variable {cache : Cache} {digest : Digest} {name : String} {traffic : Traffic} {writer : Nat}
  {call : Writer} {w : Workspace} {stage : Stage}

private theorem view_after (traffic : Traffic) (writer : Nat) (call : Writer) {process : Nat}
    (own : w.process = process) (here : w.here = traffic.here) :
    (traffic.after writer w call).view process = w := by
  obtain ⟨files, place, number, issued⟩ := w
  simp only at own here
  simp [Traffic.view, Traffic.after, own, here]

/-- The traffic lets a writer take every step that it takes when it is alone. -/
theorem step_of_advance (calls : traffic.writers writer = some call) (live : call.live = true)
    (advance : Advance (call.job cache digest name) (traffic.view call.process, call.stage)
      (w, stage)) :
    ∃ event next, Step cache digest name traffic event next ∧ next.view call.process = w ∧
      next.writers writer = some { call with stage } ∧
      (∀ other, other ≠ writer → traffic.writers other = none → next.writers other = none) ∧
      published [event] = if stage = .moved then [call.artifact] else [] := by
  obtain ⟨own, here, -⟩ := advance_number advance
  by_cases moves : stage = .moved
  · subst moves
    obtain ⟨number, handle, opened, files, moved⟩ := moved_of_advance advance
    obtain ⟨source, node, found, target, -⟩ := move_ok moved
    have old : traffic.files.lookup traffic.here
        ((call.job cache digest name).hidden call.process number) = .ok (source, node) := by
      simp only [Traffic.view] at found
      simp only [lookup, found]
    obtain ⟨spot, new⟩ : ∃ spot, traffic.files.find false traffic.here
        (call.job cache digest name).file = .ok spot := by
      rcases target with ⟨location, slash, came, -⟩ | ⟨location, held, came, -⟩
      · exact ⟨_, came⟩
      · exact ⟨_, came⟩
    refine ⟨_, _, .move calls live opened advance old new,
      view_after (traffic.following source (endOf spot)) writer _ own here, by simp [Traffic.after],
      fun other different free => ?_, by simp [published]⟩
    simp [Traffic.after, Traffic.following, different, free]
  · refine ⟨_, _, .step calls live advance moves, view_after traffic writer _ own here,
      by simp [Traffic.after], fun other different free => ?_, by simp [published, moves]⟩
    simp [Traffic.after, different, free]

/-- What a writer does when it is alone is a run. -/
theorem run_of_progress (calls : traffic.writers writer = some call) (live : call.live = true)
    (progress : Progress (call.job cache digest name) (traffic.view call.process, .starting)
      (w, stage)) (new : call.stage = .starting) :
    ∃ events now, Run cache digest name traffic now events ∧ now.view call.process = w ∧
      (∀ other, other ≠ writer → traffic.writers other = none → now.writers other = none) ∧
      published events = if stage = .moved then [call.artifact] else [] := by
  have run : ∀ {point}, Progress (call.job cache digest name)
      (traffic.view call.process, .starting) point →
      ∃ events now, Run cache digest name traffic now events ∧ now.view call.process = point.1 ∧
        now.writers writer = some { call with stage := point.2 } ∧
        (∀ other, other ≠ writer → traffic.writers other = none → now.writers other = none) ∧
        published events = if point.2 = .moved then [call.artifact] else [] := by
    intro point progress
    induction progress with
    | refl => exact ⟨[], traffic, .start, rfl, by rw [← new, calls], fun _ _ free => free, rfl⟩
    | @tail before point _ advance ih =>
      obtain ⟨events, now, run, seen, calls', others, listed⟩ := ih
      obtain ⟨middle, reached⟩ := before
      obtain ⟨after, next⟩ := point
      obtain rfl : now.view call.process = middle := seen
      obtain ⟨event, last, step, seen, calls', others', listed'⟩ :=
        step_of_advance calls' live advance
      refine ⟨events ++ [event], last, .on run step, seen, calls', fun other different free =>
        others' other different (others other different free), ?_⟩
      rw [published_append, listed, listed', if_neg (advance_from advance), List.nil_append]
  obtain ⟨events, now, run, seen, -, others, listed⟩ := run progress
  exact ⟨events, now, run, seen, others, listed⟩

theorem run_trans {name : String} {start middle last : Traffic} {events events' : List Event}
    (first : Run cache digest name start middle events)
    (second : Run cache digest name middle last events') :
    Run cache digest name start last (events ++ events') := by
  induction second with
  | start => rwa [List.append_nil]
  | on _ step ih =>
    rw [← List.append_assoc]
    exact .on ih step

/-- What a process that calls does alone is a run from its call on. -/
theorem run_of_call {artifact : Artifact} (writer process : Nat)
    (new : traffic.writers writer = none)
    (progress : Progress ⟨cache.directory digest, name, artifact.encode⟩
      (traffic.view process, .starting) (w, stage)) :
    ∃ events now, Run cache digest name traffic now events ∧ now.view process = w ∧
      (∀ other, other ≠ writer → traffic.writers other = none → now.writers other = none) ∧
      published events = if stage = .moved then [artifact] else [] := by
  have call : Step cache digest name traffic (.called writer) _ := .call new process artifact
  have calls : (traffic.calling writer process artifact).writers writer =
      some ⟨process, artifact, .starting, true⟩ := Function.update_self ..
  obtain ⟨events, now, run, seen, others, listed⟩ := run_of_progress calls rfl progress rfl
  refine ⟨_, now, run_trans (.on .start call) run, seen, fun other different free => ?_, ?_⟩
  · exact others other different ((Function.update_of_ne different ..).trans free)
  · rw [← listed]
    rfl

/-- Writing an artifact in one process, with nothing in between, is a run. -/
theorem run_of_write_artifact {after : Workspace} {artifact : Artifact} {written : Path}
    (done : cache.writeArtifact digest name artifact w = .ok written after) :
    ∃ events now, Run cache digest name (.idle w) now events ∧ now.view w.process = after ∧
      published events = [artifact] := by
  have progress : Progress _ ((Traffic.idle w).view w.process, .starting) _ :=
    progress_of_write_artifact done
  obtain ⟨events, now, run, seen, -, listed⟩ := run_of_call 0 w.process rfl progress
  exact ⟨events, now, run, seen, listed⟩

end Lone

section Filling
variable {cache : Cache} {digest : Digest} {place : Location} {w : Workspace} {count : Nat}

/-- In the directory of a digest a writer can create its temporary file and write a first part of its
content. -/
theorem fills_part (job : Job) (opened : Opened cache place digest w) (roomy : Roomy cache.root)
    (directory : job.directory = cache.directory digest)
    (fit : Fit (hiddenName job.name w.process w.issued)) (enough : count ≤ job.content.length)
    (free : w.files.get? (artifactPlace place digest (hiddenName job.name w.process w.issued)) =
      none) :
    ∃ after handle, Progress job (w, .starting) (after, .opened w.issued handle count) ∧
      Opened cache place digest after ∧ after.process = w.process ∧ after.issued = w.issued + 1 ∧
      ∀ location, after.files.get? location =
        if location = artifactPlace place digest (hiddenName job.name w.process w.issued) then
          some (.file (job.content.take count) false)
        else w.files.get? location := by
  obtain ⟨files, writing, ⟨rooted, inside⟩, held⟩ := writes_file (w := w) id (job.content.take count)
    opened roomy fit free
  obtain ⟨files', wrote, same⟩ := change_ok writing
  obtain rfl : files = files' := congrArg Workspace.files same
  have path : job.hidden w.process w.issued =
      cache.file digest (hiddenName job.name w.process w.issued) := by
    rw [Job.hidden, directory]
    rfl
  rw [← path] at wrote
  obtain ⟨handle, filled⟩ := progress_of_write (w := { w with issued := w.issued + 1 }) job w.issued
    (List.take_prefix count _) wrote
  rw [List.length_take_of_le enough] at filled
  exact ⟨_, handle, filled.head .name, ⟨rooted, inside⟩, rfl, rfl, held⟩

/-- If the names are free, a writer can come to its end. -/
theorem fills_whole (job : Job) (opened : Opened cache place digest w) (roomy : Roomy cache.root)
    (directory : job.directory = cache.directory digest)
    (fit : Fit (hiddenName job.name w.process w.issued)) (fit' : Fit job.name)
    (free : w.files.get? (artifactPlace place digest (hiddenName job.name w.process w.issued)) =
      none)
    (free' : w.files.get? (artifactPlace place digest job.name) = none) :
    ∃ after, Progress job (w, .starting) (after, .moved) ∧
      ∀ location, after.files.get? location =
        if location = artifactPlace place digest job.name then some (.file job.content false)
        else w.files.get? location := by
  obtain ⟨full, handle, filled, opened, process, -, held⟩ :=
    fills_part job opened roomy directory fit (Nat.le_refl _) free
  rw [List.take_length] at held
  have different : hiddenName job.name w.process w.issued ≠ job.name :=
    (temporary_plain fit'.plain w.process w.issued).2
  have there := held (artifactPlace place digest (hiddenName job.name w.process w.issued))
  rw [if_pos rfl] at there
  have absent := held (artifactPlace place digest job.name)
  rw [if_neg (artifact_names_apart place digest different.symm), free'] at absent
  obtain ⟨files, moving, held'⟩ := moves_file id opened roomy fit fit' there absent
  obtain ⟨files', moved, same⟩ := change_ok moving
  obtain rfl : files = files' := congrArg Workspace.files same
  have paths : job.hidden w.process w.issued =
        cache.file digest (hiddenName job.name w.process w.issued) ∧
      job.file = cache.file digest job.name := by
    rw [Job.hidden, Job.file, directory]
    exact ⟨rfl, rfl⟩
  rw [← paths.1, ← paths.2, ← process] at moved
  refine ⟨_, filled.tail (.move moved), fun location => ?_⟩
  rw [held', held]
  by_cases own : location = artifactPlace place digest (hiddenName job.name w.process w.issued)
  · rw [own, free]
    simp
  · simp [own]

end Filling

section Examples

/-- An artifact without a payload. -/
private def hollow : Artifact := ⟨"0.4.6", []⟩

private theorem hidden_fit : Fit (hiddenName Cache.resultName 1 0) ∧
    Fit (hiddenName Cache.resultName 1 1) := by
  constructor
  · exact ⟨(temporary_plain result_plain 1 0).1, by decide, by decide⟩
  · exact ⟨(temporary_plain result_plain 1 1).1, by decide, by decide⟩

/-- In the empty cache a writer makes the directory and writes five bytes. -/
private theorem five_bytes (digest : Digest) : ∃ after handle,
    Progress ⟨smallCache.directory digest, Cache.resultName, hollow.encode⟩ (twoNames, .starting)
        (after, .opened 0 handle 5) ∧
      Opened smallCache ["c"] digest after ∧ after.process = 1 ∧ after.issued = 1 ∧
      ∀ name, after.files.get? (artifactPlace ["c"] digest name) =
        if name = hiddenName Cache.resultName 1 0 then some (.file (hollow.encode.take 5) false)
        else none := by
  obtain ⟨made, making, opened, held⟩ := makes_directory id two_names_rooted small_roomy
    (two_names_new digest _ List.prefix_rfl)
  have bare : ∀ name, made.get? (artifactPlace ["c"] digest name) = none := by
    intro name
    rw [held, if_neg (by simp [artifactPlace])]
    exact two_names_new digest _ ⟨[name], by simp [artifactPlace]⟩
  obtain ⟨after, handle, part, opened, process, issued, held'⟩ :=
    fills_part (w := { twoNames with files := made })
      ⟨smallCache.directory digest, Cache.resultName, hollow.encode⟩ opened small_roomy rfl
      hidden_fit.1 (show 5 ≤ hollow.encode.length by decide +kernel) (bare _)
  have held' : ∀ location, after.files.get? location =
      if location = artifactPlace ["c"] digest (hiddenName Cache.resultName 1 0) then
        some (.file (hollow.encode.take 5) false)
      else made.get? location := held'
  refine ⟨after, handle, (progress_of_make_directories _ making).trans part, opened, process, issued,
    fun name => ?_⟩
  rw [held']
  by_cases same : name = hiddenName Cache.resultName 1 0
  · rw [same, if_pos rfl, if_pos rfl]
  · rw [if_neg same, if_neg (artifact_names_apart ["c"] digest same)]
    exact bare name

/-- One writer stops in the middle of its temporary file, and another one then writes its artifact to
the end: the artifact is read, and the torn file stays aside. -/
theorem torn_file_stays_aside : ∃ events now,
    Run smallCache emptyRequest.digest Cache.resultName (.idle twoNames) now events ∧
      contentAt? now.files
          (artifactPlace ["c"] emptyRequest.digest (hiddenName Cache.resultName 1 0)) =
        some (hollow.encode.take 5) ∧
      smallCache.readArtifact? (now.view 1) emptyRequest.digest Cache.resultName =
        some noObjectsArtifact := by
  generalize emptyRequest.digest = digest
  obtain ⟨torn, handle, part, opened, process, issued, held⟩ := five_bytes digest
  have apart : ∀ {number}, hiddenName Cache.resultName 1 number = hiddenName Cache.resultName 1 0 →
      number = 0 := fun same => (hidden_name_injective same).2
  have result : Cache.resultName ≠ hiddenName Cache.resultName 1 0 :=
    (temporary_plain result_plain 1 0).2.symm
  have second : hiddenName Cache.resultName torn.process torn.issued =
      hiddenName Cache.resultName 1 1 := by rw [process, issued]
  obtain ⟨whole, rest, held'⟩ := fills_whole
    ⟨smallCache.directory digest, Cache.resultName, noObjectsArtifact.encode⟩ opened small_roomy rfl
    (second ▸ hidden_fit.2) result_fit
    (by rw [second, held, if_neg (fun same => by cases apart same)])
    (by rw [held, if_neg result])
  have first : Progress _ ((Traffic.idle twoNames).view 1, .starting) _ := part
  obtain ⟨events, middle, run, seen, others, listed⟩ := run_of_call 0 1 rfl first
  rw [← seen] at rest
  obtain ⟨events', now, run', seen', -, listed'⟩ :=
    run_of_call 1 1 (others 1 (by decide) rfl) rest
  have run := run_trans run run'
  have last : (published (events ++ events')).getLast? = some noObjectsArtifact := by
    rw [published_append, listed, listed']
    rfl
  have placed : Placed smallCache ["c"] ((Traffic.idle twoNames).view 1) := two_names_placed
  obtain ⟨-, published, -⟩ := reads_whole_artifact placed result_plain (fun _ => rfl) run
  refine ⟨events ++ events', now, run, ?_, ?_⟩
  · apply content_of_file
    have files := held' (artifactPlace ["c"] digest (hiddenName Cache.resultName 1 0))
    rw [if_neg (artifact_names_apart ["c"] digest result.symm), held, if_pos rfl, ← seen'] at files
    exact files
  · rcases (published noObjectsArtifact last).2 with read | ⟨-, long⟩
    · exact read
    · exact absurd no_objects_fits.1 long

/-- The directory that is missing on the way is one that a writer makes. -/
private theorem detour_on_the_way (digest : Digest) :
    OnTheWay (detourCache.directory digest) ⟨"x"⟩ := by
  have root : OnTheWay (detourCache.directory digest) detourCache.root :=
    .above .own (directory_above digest)
  have back : OnTheWay (detourCache.directory digest) ⟨"x/.."⟩ := .above root (by decide)
  exact .above back (by decide)

/-- Where the root path goes through a link in the place of the artifact, nothing is read after a writer
has come to its end. Where a directory on the way is missing, the first step of a writer lets an
artifact be read that was not read before; and where the name of the artifact leads out of the directory
of its digest, making this directory does. An artifact whose header is too long is not read. -/
theorem unforeseen_reads :
    (∃ events now, Run (tangledCache emptyRequest.digest) emptyRequest.digest Cache.resultName
        (.idle (tangled emptyRequest.digest)) now events ∧
      published events = [noObjectsArtifact] ∧
      (tangledCache emptyRequest.digest).readArtifact? (now.view 1) emptyRequest.digest
        Cache.resultName = none) ∧
    (detourCache.readArtifact? ((Traffic.idle (buried emptyRequest.digest)).view 1)
        emptyRequest.digest Cache.resultName = none ∧
      ∃ events now, Run detourCache emptyRequest.digest Cache.resultName
          (.idle (buried emptyRequest.digest)) now events ∧
        published events = [] ∧
        detourCache.readArtifact? (now.view 1) emptyRequest.digest Cache.resultName =
          some noObjectsArtifact) ∧
    (smallCache.readArtifact? ((Traffic.idle beside).view 1) emptyRequest.digest outerName = none ∧
      ∃ events now, Run smallCache emptyRequest.digest outerName (.idle beside) now events ∧
        published events = [] ∧
        smallCache.readArtifact? (now.view 1) emptyRequest.digest outerName =
          some noObjectsArtifact) ∧
    ∃ artifact events now, Run smallCache emptyRequest.digest Cache.resultName (.idle twoNames) now
        events ∧
      published events = [artifact] ∧
      smallCache.readArtifact? (now.view 1) emptyRequest.digest Cache.resultName = none := by
  generalize emptyRequest.digest = digest
  obtain ⟨files, made, unread, read⟩ := outer_uncovered digest
  refine ⟨?_, ⟨(artifact_uncovered digest).1, ?_⟩, ⟨unread, ?_⟩, ?_⟩
  · obtain ⟨after, put, lost⟩ := tangled_loses digest noObjectsArtifact.payload "0.4.6"
    have read := read_kept put
    rw [lost, if_neg (by simp)] at read
    obtain ⟨path, last, written, ended⟩ := ok_of_bind put
    obtain ⟨-, rfl⟩ := EStateM.Result.ok.inj ended
    obtain ⟨events, now, run, seen, listed⟩ := run_of_write_artifact written
    exact ⟨events, now, run, listed, by rw [← read, ← seen]; rfl⟩
  · have step : Progress ⟨detourCache.directory digest, Cache.resultName, noObjectsArtifact.encode⟩
        ((Traffic.idle (buried digest)).view 1, .starting) _ :=
      .single (.makeDirectory (detour_on_the_way digest) (x_made digest))
    obtain ⟨events, now, run, seen, -, listed⟩ := run_of_call 0 1 rfl step
    exact ⟨events, now, run, listed, by rw [seen]; exact (artifact_uncovered digest).2⟩
  · have step : Progress ⟨smallCache.directory digest, outerName, noObjectsArtifact.encode⟩
        ((Traffic.idle beside).view 1, .starting) _ := .single (.makeDirectory .own made)
    obtain ⟨events, now, run, seen, -, listed⟩ := run_of_call 0 1 rfl step
    exact ⟨events, now, run, listed, by rw [seen]; exact read⟩
  · obtain ⟨after, put, -⟩ := put_payload_succeeds [] (String.ofList
      (List.replicate (Bytes.capacity 4) 'a')) two_names_rooted small_roomy (two_names_new digest)
      first_name_fit
    have read := read_kept put
    have long := mt decode_some_iff.mp (long_version_unfit (Nat.le_refl (Bytes.capacity 4)) [])
    rw [Option.not_isSome_iff_eq_none.mp long, ite_self] at read
    obtain ⟨path, last, written, ended⟩ := ok_of_bind put
    obtain ⟨-, rfl⟩ := EStateM.Result.ok.inj ended
    obtain ⟨events, now, run, seen, listed⟩ := run_of_write_artifact written
    exact ⟨_, events, now, run, listed, by rw [← read, ← seen]; rfl⟩

end Examples

end ContractBuild.ConcurrentWriters
