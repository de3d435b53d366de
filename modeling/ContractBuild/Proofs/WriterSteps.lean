import ContractBuild.Proofs.CacheChange
import Mathlib.Logic.Relation

/-! How a file is written as a whole, one call of the system at a time: directories are made, a
temporary name is given out, a file is created under it and filled part by part, and the full file is
moved into place. A writer may stop after any of these steps. Until the last one it changes nothing
but its temporary file, and the last one gives the file its whole content. -/
namespace ContractBuild.WriterSteps
open CacheChange CachePlace FileTree PathRoute PathWalk WrittenFiles

/-- The temporary name that a process gives out for a file, its names being numbered. -/
def hiddenName (name : String) (process number : Nat) : String :=
  s!".{name}.{process}.{number}.tmp"

/-- What a writer is to do: to give a file in a directory a content. -/
structure Job where
  directory : Path
  name : String
  content : Bytes

namespace Job

/-- The path of the file. -/
def file (job : Job) : Path := job.directory.join ⟨job.name⟩

/-- The path of a temporary file. -/
def hidden (job : Job) (process number : Nat) : Path :=
  job.directory.join ⟨hiddenName job.name process number⟩

end Job

/-- How far a writer has come. -/
inductive Stage where
  /-- The directories are being made. -/
  | starting
  /-- The temporary name is known by its number. -/
  | named (number : Nat)
  /-- The temporary file is open and has so many bytes of the content. The handle is the location of
  the open file, wherever it is moved, and nothing once another file has taken its place. -/
  | opened (number : Nat) (handle : Option Location) (written : Nat)
  /-- The file is in its place. -/
  | moved
  deriving DecidableEq

/-- Bytes with others written over them from an offset on, and zeros where there was nothing up to
the offset. -/
def overwrite (held : Bytes) (offset : Nat) (chunk : Bytes) : Bytes :=
  held.take offset ++ List.replicate (offset - held.length) 0 ++ chunk ++
    held.drop (offset + chunk.length)

/-- The tree after bytes have been written through a handle. -/
def putThrough (tree : FileTree) (handle : Option Location) (offset : Nat) (chunk : Bytes) :
    FileTree :=
  match handle with
  | none => tree
  | some location =>
    match tree.get? location with
    | some (.file held executable) =>
      tree.set location (.file (overwrite held offset chunk) executable)
    | _ => tree

/-- A path is a directory's own or leads to one above it. -/
inductive OnTheWay (directory : Path) : Path → Prop where
  | own : OnTheWay directory directory
  | above {path parent : Path} (below : OnTheWay directory path) (above : path.parent? = some parent) :
      OnTheWay directory parent

/-- One call of the system that a writer makes. -/
inductive Advance (job : Job) : Workspace × Stage → Workspace × Stage → Prop where
  | makeDirectory {w : Workspace} {path : Path} {files : FileTree}
      (onTheWay : OnTheWay job.directory path)
      (made : w.files.makeDirectory w.here path = .ok files) :
      Advance job (w, .starting) ({ w with files }, .starting)
  | name {w : Workspace} :
      Advance job (w, .starting) ({ w with issued := w.issued + 1 }, .named w.issued)
  | create {w : Workspace} {number : Nat} {files : FileTree} {location : Location}
      {executable : Bool}
      (wrote : w.files.write w.here (job.hidden w.process number) [] = .ok files)
      (found : files.lookup w.here (job.hidden w.process number) =
        .ok (location, .file [] executable)) :
      Advance job (w, .named number) ({ w with files }, .opened number (some location) 0)
  | extend {w : Workspace} {number : Nat} {handle : Option Location} {written : Nat} {chunk : Bytes}
      (next : chunk <+: job.content.drop written) :
      Advance job (w, .opened number handle written)
        ({ w with files := putThrough w.files handle written chunk },
          .opened number handle (written + chunk.length))
  | move {w : Workspace} {number : Nat} {handle : Option Location} {files : FileTree}
      (moved : w.files.moveFile w.here (job.hidden w.process number) job.file = .ok files) :
      Advance job (w, .opened number handle job.content.length) ({ w with files }, .moved)

/-- What a writer has done, wherever it stops. -/
abbrev Progress (job : Job) : Workspace × Stage → Workspace × Stage → Prop :=
  Relation.ReflTransGen (Advance job)

section Runs
variable {ε : Type} {job : Job} {w after : Workspace} {tree files : FileTree} {here : Location}
  {directory path written : Path} {name : String} {content : Bytes}

/-- Making the directories on the way to a job's directory is a run of steps, whether all of them are
made or not. -/
theorem progress_of_directories (onTheWay : OnTheWay job.directory path) (w : Workspace) :
    Progress job (w, .starting)
      ({ w with files := (w.files.makeDirectories w.here path).2 }, .starting) := by
  obtain ⟨tree, here, process, issued⟩ := w
  dsimp only
  fun_induction makeDirectories tree here path
  case case1 => exact .refl
  case case2 made => exact .single (.makeDirectory (w := ⟨_, _, _, _⟩) onTheWay made)
  case case3 => exact .refl
  case case4 above error partly failed ih =>
    have before := ih (.above onTheWay above)
    rwa [failed] at before
  case case5 above partly done made last ih =>
    have before := ih (.above onTheWay above)
    rw [done] at before
    exact before.tail (.makeDirectory (w := ⟨_, _, _, _⟩) onTheWay last)
  case case6 above partly done error failed ih =>
    have before := ih (.above onTheWay above)
    rwa [done] at before
  case case7 => exact .refl

theorem set_set (tree : FileTree) (location : Location) (node node' : Node) :
    (tree.set location node).set location node' = tree.set location node' := by
  simp [FileTree.set]

theorem overwrite_empty (chunk : Bytes) : overwrite [] 0 chunk = chunk := by
  simp [overwrite]

/-- A file that is written at once might as well be created first and then filled. -/
private theorem write_in_steps (wrote : tree.write here path content = .ok files) :
    ∃ created location executable, tree.write here path [] = .ok created ∧
      created.lookup here path = .ok (location, .file [] executable) ∧
      putThrough created (some location) 0 content = files := by
  have filled : ∀ {location : Location} {executable : Bool}, location ≠ [] →
      putThrough (tree.set location (.file [] executable)) (some location) 0 content =
        tree.set location (.file content executable) := by
    intro location executable inner
    simp only [putThrough, get?_set _ _ _ _ inner, ↓reduceIte, set_set, overwrite_empty]
  unfold FileTree.write at wrote ⊢
  split at wrote
  · rename_i location old executable came
    obtain rfl := Except.ok.inj wrote
    have noWay : NoWay tree location :=
      Or.inr ⟨old, executable, taken_there (by simp) (walk_of_find came)⟩
    have inner := inner_of_no_way noWay
    refine ⟨_, location, executable, rfl, ?_, filled inner⟩
    apply lookup_later (keeps_ways_set noWay _) came
    apply Later.rewritten
    rw [get?_set _ _ _ _ inner, if_pos rfl]
  · cases wrote
  · rename_i location came
    obtain rfl := Except.ok.inj wrote
    obtain ⟨absent, inner⟩ := find_free came
    refine ⟨_, location, false, rfl, ?_, filled inner⟩
    apply lookup_later (keeps_ways_set (Or.inl absent) _) came
    refine Later.made ?_ (by simp) (by simp)
    rw [get?_set _ _ _ _ inner, if_pos rfl]
  · cases wrote
  · cases wrote

/-- A first part of the content that is written at once is a temporary file that is created and then
filled. -/
theorem progress_of_write (job : Job) (number : Nat) {part : Bytes} (first : part <+: job.content)
    (wrote : w.files.write w.here (job.hidden w.process number) part = .ok files) :
    ∃ handle, Progress job (w, .named number)
      ({ w with files }, .opened number handle part.length) := by
  obtain ⟨created, location, executable, emptied, found, rfl⟩ := write_in_steps wrote
  have fill : Advance job ({ w with files := created }, .opened number (some location) 0) _ :=
    .extend (first : part <+: job.content.drop 0)
  rw [Nat.zero_add] at fill
  have create : Advance job (w, .named number) _ := .create emptied found
  exact ⟨some location, (Relation.ReflTransGen.single create).tail fill⟩

/-- Writing a whole file is a run of a writer that ends with the file in its place. -/
theorem progress_of_write_whole {fail : Path → FileError → ε}
    (done : Disk.writeWhole fail directory name content w = .ok written after) :
    Progress ⟨directory, name, content⟩ (w, .starting) (after, .moved) := by
  obtain ⟨files, files', wrote, moved, rfl⟩ := write_whole_ok done
  obtain ⟨handle, filled⟩ := progress_of_write (w := { w with issued := w.issued + 1 })
    ⟨directory, name, content⟩ w.issued List.prefix_rfl wrote
  exact (filled.head .name).tail (.move (w := ⟨_, _, _, _⟩) moved)

/-- Where writing a whole file fails, a writer has stopped before its file was in its place. -/
theorem progress_of_failed_write {fail : Path → FileError → ε} {error : ε}
    (failed : Disk.writeWhole fail directory name content w = .error error after) :
    ∃ stage, stage ≠ .moved ∧ Progress ⟨directory, name, content⟩ (w, .starting) (after, stage) := by
  rcases error_of_bind failed with naming | ⟨temporary, issued, naming, failed⟩
  · cases naming
  · obtain ⟨rfl, rfl⟩ := EStateM.Result.ok.inj naming
    rcases error_of_bind failed with writing | ⟨⟨⟩, filled, writing, failed⟩
    · obtain rfl := change_failed writing
      exact ⟨.named w.issued, by simp, .single .name⟩
    · obtain ⟨files, wrote, rfl⟩ := change_ok writing
      rcases error_of_bind failed with moving | ⟨⟨⟩, moved, -, ended⟩
      · obtain rfl := change_failed moving
        obtain ⟨handle, filled⟩ := progress_of_write (w := { w with issued := w.issued + 1 })
          ⟨directory, name, content⟩ w.issued List.prefix_rfl wrote
        exact ⟨.opened w.issued handle content.length, by simp, filled.head .name⟩
      · cases ended

theorem progress_of_make_directories (job : Job) {fail : FileError → ε} {answer : Unit}
    (done : Disk.makeDirectories fail job.directory w = .ok answer after) :
    Progress job (w, .starting) (after, .starting) := by
  obtain ⟨files, built, rfl⟩ := make_directories_ok done
  have progress := progress_of_directories (.own : OnTheWay job.directory job.directory) w
  rwa [built] at progress

theorem progress_of_failed_directories (job : Job) {fail : FileError → ε} {error : ε}
    (failed : Disk.makeDirectories fail job.directory w = .error error after) :
    Progress job (w, .starting) (after, .starting) := by
  have progress := progress_of_directories (.own : OnTheWay job.directory job.directory) w
  unfold Disk.makeDirectories at failed
  split at failed
  · cases failed
  · rename_i cause files made
    obtain ⟨-, rfl⟩ := EStateM.Result.error.inj failed
    rwa [made] at progress

/-- Writing an artifact is a run of a writer, from the directories to the file in its place. -/
theorem progress_of_write_artifact {cache : Cache} {digest : Digest} {artifact : Artifact}
    (done : cache.writeArtifact digest name artifact w = .ok written after) :
    Progress ⟨cache.directory digest, name, artifact.encode⟩ (w, .starting) (after, .moved) := by
  obtain ⟨⟨⟩, made, making, whole⟩ := ok_of_bind done
  exact (progress_of_make_directories _ making).trans (progress_of_write_whole whole)

/-- Where writing an artifact fails, a writer has stopped before its file was in its place. -/
theorem progress_of_failed_artifact {cache : Cache} {digest : Digest} {artifact : Artifact}
    {error : CacheError} (failed : cache.writeArtifact digest name artifact w = .error error after) :
    ∃ stage, stage ≠ .moved ∧
      Progress ⟨cache.directory digest, name, artifact.encode⟩ (w, .starting) (after, stage) := by
  rcases error_of_bind failed with making | ⟨⟨⟩, made, making, failed⟩
  · exact ⟨.starting, by simp, progress_of_failed_directories _ making⟩
  · obtain ⟨stage, unmoved, rest⟩ := progress_of_failed_write failed
    exact ⟨stage, unmoved, (progress_of_make_directories _ making).trans rest⟩

end Runs

section Names

/-- What stands before the first dot of a text is part of the text. -/
private theorem before_dot {front front' rest rest' : List Char} (undotted : '.' ∉ front)
    (undotted' : '.' ∉ front') (same : front ++ '.' :: rest = front' ++ '.' :: rest') :
    front = front' ∧ rest = rest' := by
  induction front generalizing front' with
  | nil =>
    cases front' with
    | nil => exact ⟨rfl, (List.cons.inj same).2⟩
    | cons c front' =>
      obtain ⟨rfl, -⟩ := List.cons.inj same
      exact absurd (by simp) undotted'
  | cons c front ih =>
    cases front' with
    | nil =>
      obtain ⟨rfl, -⟩ := List.cons.inj same
      exact absurd (by simp) undotted
    | cons c' front' =>
      obtain ⟨rfl, onward⟩ := List.cons.inj same
      obtain ⟨rfl, ends⟩ := ih (fun dot => undotted (List.mem_cons_of_mem _ dot))
        (fun dot => undotted' (List.mem_cons_of_mem _ dot)) onward
      exact ⟨rfl, ends⟩

/-- Different names are given out by different processes, and by one process at different times. -/
theorem hidden_name_injective {name : String} {process number process' number' : Nat}
    (same : hiddenName name process number = hiddenName name process' number') :
    process = process' ∧ number = number' := by
  have chars : ∀ process number, (hiddenName name process number).toList =
      '.' :: (name.toList ++ '.' :: (Nat.toDigits 10 process ++ '.' ::
        (Nat.toDigits 10 number ++ '.' :: "tmp".toList))) := by
    intro process number
    simp only [hiddenName, toString, String.toList_append, String.reduceToList, List.cons_append,
      List.nil_append, Nat.toList_repr, List.append_assoc]
  have undotted : ∀ n, '.' ∉ Nat.toDigits 10 n := by
    intro n dot
    have digit : '.'.isDigit = true := Nat.isDigit_of_mem_toDigits (by decide) (by decide) dot
    exact absurd digit (by decide)
  have read : ∀ {n n' : Nat}, Nat.toDigits 10 n = Nat.toDigits 10 n' → n = n' := by
    intro n n' digits
    have numbers := congrArg (Nat.ofDigitChars 10 · 0) digits
    simpa only [Nat.ofDigitChars_ten_toDigits] using numbers
  have whole := congrArg String.toList same
  rw [chars, chars] at whole
  have rest := (List.cons.inj (List.append_cancel_left (List.cons.inj whole).2)).2
  obtain ⟨processes, rest⟩ := before_dot (undotted process) (undotted process') rest
  obtain ⟨numbers, -⟩ := before_dot (undotted number) (undotted number') rest
  exact ⟨read processes, read numbers⟩

end Names

section Effects
variable {cache : Cache} {place : Location} {front : List String} {job : Job}
  {w middle after : Workspace} {stage stage' : Stage} {number : Nat}

/-- A change is confined to some locations: the files in all others have the contents that they had,
and all directories and links are where they were. -/
structure Confined (changed : Location → Prop) (w after : Workspace) : Prop where
  here : after.here = w.here
  process : after.process = w.process
  links : SameLinks w.files after.files
  ways : KeepsWays w.files after.files
  elsewhere : ∀ location, ¬ changed location →
    contentAt? after.files location = contentAt? w.files location

theorem confined_refl (changed : Location → Prop) (w : Workspace) : Confined changed w w :=
  ⟨rfl, rfl, fun _ _ => Iff.rfl, keeps_ways_refl _, fun _ _ => rfl⟩

theorem confined_trans {changed : Location → Prop} (first : Confined changed w middle)
    (second : Confined changed middle after) : Confined changed w after where
  here := second.here.trans first.here
  process := second.process.trans first.process
  links := same_links_trans first.links second.links
  ways := keeps_ways_trans first.ways second.ways
  elsewhere location other :=
    (second.elsewhere location other).trans (first.elsewhere location other)

theorem confined_mono {changed changed' : Location → Prop} (confined : Confined changed w after)
    (wider : ∀ location, changed location → changed' location) : Confined changed' w after :=
  { confined with
    elsewhere := fun location other =>
      confined.elsewhere location fun inside => other (wider location inside) }

theorem placed_of_confined {changed : Location → Prop} (placed : Placed cache place w)
    (confined : Confined changed w after) : Placed cache place after :=
  placed_of_same_links after placed confined.links confined.here

theorem content_of_set {tree : FileTree} {location : Location} {content : Bytes} {executable : Bool}
    (inner : location ≠ []) :
    contentAt? (tree.set location (.file content executable)) location = some content := by
  rw [contentAt?, get?_set _ _ _ _ inner, if_pos rfl]

/-- Setting a location that is no way is a change that is confined to it. -/
theorem confined_set {location : Location} (noWay : NoWay w.files location) (content : Bytes)
    (executable : Bool) :
    Confined (· = location) w
      { w with files := w.files.set location (.file content executable) } where
  here := rfl
  process := rfl
  links := same_links_of_no_way noWay content executable
  ways := keeps_ways_set noWay _
  elsewhere other apart := by
    unfold contentAt?
    rw [get?_set _ _ _ _ (inner_of_no_way noWay), if_neg apart]

/-- Making a directory is a change that is confined to no file. -/
theorem confined_grown {files : FileTree} (grown : Grown w.files files) :
    Confined (fun _ => False) w { w with files } where
  here := rfl
  process := rfl
  links := same_links_of_grown grown
  ways := keeps_ways_of_grown grown
  elsewhere location _ := by
    rcases grown location with same | ⟨absent, there⟩
    · simp only [contentAt?, same]
    · simp only [contentAt?, absent, there]

/-- A job is to write a file below the root of a cache, under plain names. -/
structure Inside (cache : Cache) (front : List String) (job : Job) : Prop where
  directory : job.directory = pathBelow cache.root front
  plain : ∀ name ∈ front, Plain name
  named : Plain job.name

/-- The location of the file of a job. -/
def filePlace (place : Location) (front : List String) (job : Job) : Location :=
  place ++ (front ++ [job.name])

/-- The location of a temporary file of a job. -/
def hiddenPlace (place : Location) (front : List String) (job : Job) (process number : Nat) :
    Location :=
  place ++ (front ++ [hiddenName job.name process number])

theorem hidden_place_apart (named : Plain job.name) (process number : Nat) :
    hiddenPlace place front job process number ≠ filePlace place front job := by
  have different := (temporary_plain named process number).2
  intro same
  have names := List.append_cancel_left (List.append_cancel_left same)
  exact different (List.singleton_inj.mp names)

private theorem inside_file (inside : Inside cache front job) :
    job.file = pathBelow cache.root (front ++ [job.name]) ∧
      ∀ name ∈ front ++ [job.name], Plain name := by
  refine ⟨by rw [Job.file, inside.directory, below_concat], fun name among => ?_⟩
  rcases List.mem_append.mp among with among | last
  · exact inside.plain name among
  · exact List.mem_singleton.mp last ▸ inside.named

private theorem inside_hidden (inside : Inside cache front job) (process number : Nat) :
    job.hidden process number =
        pathBelow cache.root (front ++ [hiddenName job.name process number]) ∧
      ∀ name ∈ front ++ [hiddenName job.name process number], Plain name := by
  refine ⟨by rw [Job.hidden, inside.directory, below_concat], fun name among => ?_⟩
  rcases List.mem_append.mp among with among | last
  · exact inside.plain name among
  · exact List.mem_singleton.mp last ▸ (temporary_plain inside.named process number).1

/-- What a writer knows of the file that it has open: it is still under the name that the writer gave
it, and has what the writer has written so far. -/
def Holds (place : Location) (front : List String) (job : Job) (process : Nat) (files : FileTree) :
    Stage → Prop
  | .opened number handle written =>
    handle = some (hiddenPlace place front job process number) ∧ written ≤ job.content.length ∧
      contentAt? files (hiddenPlace place front job process number) =
        some (job.content.take written)
  | _ => True

/-- The location of the file that a writer has open. -/
def Stage.Touches (place : Location) (front : List String) (job : Job) (process : Nat) :
    Stage → Location → Prop
  | .opened number _ _, location => location = hiddenPlace place front job process number
  | _, _ => False

private theorem overwrite_next {content chunk : Bytes} {written : Nat}
    (enough : written ≤ content.length) (next : chunk <+: content.drop written) :
    written + chunk.length ≤ content.length ∧
      overwrite (content.take written) written chunk =
        content.take (written + chunk.length) := by
  have whole : (content.take written).length = written := by simp [enough]
  have fits := next.length_le
  rw [List.length_drop] at fits
  refine ⟨by omega, ?_⟩
  rw [overwrite, List.take_of_length_le (by omega), whole, Nat.sub_self,
    List.drop_of_length_le (by omega), List.take_add,
    (List.prefix_iff_eq_take.mp next).symm]
  simp

/-- Only a location that is free or holds a file is written to. -/
private theorem written_no_way (placed : Placed cache place w) {names : List String}
    (nonempty : names ≠ []) (plain : ∀ name ∈ names, Plain name) {content : Bytes}
    {files : FileTree}
    (done : w.files.write w.here (pathBelow cache.root names) content = .ok files) :
    NoWay w.files (place ++ names) := by
  unfold FileTree.write at done
  split at done
  · rename_i location old executable found
    cases find_below placed nonempty plain found with
    | taken there => exact Or.inr ⟨old, executable, there⟩
  · cases done
  · rename_i location found
    cases find_below placed nonempty plain found with
    | free absent => exact Or.inl absent
  · cases done
  · cases done

/-- A writer that does not move its file yet changes no file but the one that it has open, and keeps
knowing what this has. -/
theorem advance_keeps (placed : Placed cache place w) (inside : Inside cache front job)
    (holds : Holds place front job w.process w.files stage)
    (step : Advance job (w, stage) (after, stage')) (unmoved : stage' ≠ .moved) :
    Holds place front job w.process after.files stage' ∧
      Confined (stage'.Touches place front job w.process) w after := by
  cases step with
  | makeDirectory onTheWay made =>
    exact ⟨trivial, confined_mono (confined_grown (make_directory_grown made)) (by simp)⟩
  | name => exact ⟨trivial, ⟨rfl, rfl, fun _ _ => Iff.rfl, keeps_ways_refl _, fun _ _ => rfl⟩⟩
  | @create _ number files location executable wrote found =>
    obtain ⟨path, plain⟩ := inside_hidden inside w.process number
    rw [path] at wrote found
    have noWay := written_no_way placed (by simp) plain wrote
    obtain ⟨executable', rfl⟩ := write_below placed (by simp) plain wrote
    have confined := confined_set noWay [] executable'
    have came := find_below (placed_of_confined placed confined) (by simp) plain
      (find_of_lookup found)
    cases came with
    | taken there => exact ⟨⟨rfl, Nat.zero_le _, content_of_file there⟩, confined⟩
  | @extend _ number handle written chunk next =>
    obtain ⟨rfl, enough, content⟩ := holds
    obtain ⟨executable, there⟩ := file_of_content content
    obtain ⟨enough', grows⟩ := overwrite_next enough next
    have noWay : NoWay w.files (hiddenPlace place front job w.process number) :=
      Or.inr ⟨_, _, there⟩
    have put : putThrough w.files (some (hiddenPlace place front job w.process number)) written
        chunk = w.files.set (hiddenPlace place front job w.process number)
          (.file (job.content.take (written + chunk.length)) executable) := by
      simp only [putThrough, there, grows]
    rw [put]
    exact ⟨⟨rfl, enough', content_of_set (inner_of_no_way noWay)⟩, confined_set noWay _ executable⟩
  | move moved => exact absurd rfl unmoved

/-- Moving a file is a change that is confined to its two locations. -/
theorem confined_move {old new : Location} {content : Bytes} {executable : Bool}
    (inner : old ≠ []) (inner' : new ≠ [])
    (solid : ∀ target, w.files.get? old ≠ some (.link target))
    (solid' : ∀ target, w.files.get? new ≠ some (.link target))
    (ways : KeepsWays w.files ((w.files.erase old).set new (.file content executable))) :
    Confined (fun location => location = old ∨ location = new) w
      { w with files := (w.files.erase old).set new (.file content executable) } where
  here := rfl
  process := rfl
  links := by
    have erased := same_links_erase inner solid
    refine same_links_trans erased (same_links_set inner' (fun target there => ?_) (by simp))
    exact solid' target ((erased new target).mp there)
  ways := ways
  elsewhere other apart := by
    obtain ⟨first, second⟩ := not_or.mp apart
    unfold contentAt?
    rw [get?_set _ _ _ _ inner', if_neg second, get?_erase _ _ _ inner, if_neg first]

/-- A writer that moves its file has written all of it. The file takes the place that it is for, and
is found there by its path. -/
theorem advance_moves (placed : Placed cache place w) (inside : Inside cache front job)
    (holds : Holds place front job w.process w.files stage)
    (step : Advance job (w, stage) (after, .moved)) :
    ∃ number, stage = .opened number (some (hiddenPlace place front job w.process number))
        job.content.length ∧
      Confined (fun location => location = hiddenPlace place front job w.process number ∨
        location = filePlace place front job) w after ∧
      contentAt? after.files (filePlace place front job) = some job.content ∧
      after.issued = w.issued ∧ after.read job.file = .ok job.content := by
  cases step with
  | @move _ number handle files moved =>
    obtain ⟨rfl, -, held⟩ := holds
    rw [List.take_length] at held
    obtain ⟨executable, there⟩ := file_of_content held
    obtain ⟨old, oldPlain⟩ := inside_hidden inside w.process number
    obtain ⟨new, newPlain⟩ := inside_file inside
    rw [old, new] at moved
    rw [new]
    have looked : w.files.lookup w.here
        (pathBelow cache.root (front ++ [hiddenName job.name w.process number])) =
          .ok (hiddenPlace place front job w.process number, .file job.content executable) := by
      obtain ⟨source, node, found, -⟩ := move_ok moved
      cases find_below placed (by simp) oldPlain found with
      | taken there' =>
        obtain rfl := Option.some.inj (there'.symm.trans there)
        rw [lookup, found]
        rfl
    obtain ⟨ways, location, found⟩ :=
      move_found moved looked (unlinked_below placed (by simp) newPlain)
    have different : front ++ [hiddenName job.name w.process number] ≠ front ++ [job.name] :=
      fun same => hidden_place_apart inside.named w.process number (congrArg (place ++ ·) same)
    obtain ⟨node, there', rfl⟩ := move_below placed different (by simp) (by simp) oldPlain newPlain
      moved
    obtain rfl := Option.some.inj (there'.symm.trans there)
    have solid : ∀ names target, w.files.get? (place ++ names) ≠ some (.link target) :=
      fun names target => placed.linkless _ target (List.prefix_append ..)
    have confined := confined_move (by simp) (by simp) (solid _) (solid _) ways
    refine ⟨number, rfl, confined, content_of_set (by simp), rfl, ?_⟩
    simp only [Workspace.read, FileTree.read, found]

/-- A file that is read below the root of a cache is read after a change as well, with the content
that it has then. -/
theorem read_later {changed : Location → Prop} (placed : Placed cache place w)
    (confined : Confined changed w after) {names : List String} (nonempty : names ≠ [])
    (plain : ∀ name ∈ names, Plain name) {content content' : Bytes}
    (read : w.read (pathBelow cache.root names) = .ok content)
    (there : contentAt? after.files (place ++ names) = some content') :
    after.read (pathBelow cache.root names) = .ok content' := by
  obtain ⟨executable, looked⟩ := read_below placed nonempty plain read
  obtain ⟨executable', there⟩ := file_of_content there
  have found := lookup_later confined.ways (find_of_lookup looked) (.rewritten there)
  simp only [Workspace.read, FileTree.read, confined.here, found]

/-- If the file of an artifact has the content that it had, and is found where it was found, reading
answers what it answered; only where the path of the file led nowhere, it may answer the file. -/
theorem read_of_same {digest : Digest} {name : String} (placed : Placed cache place after)
    (plain : Plain name)
    (same : contentAt? after.files (artifactPlace place digest name) =
      contentAt? w.files (artifactPlace place digest name))
    (found : ∀ content, w.read (cache.file digest name) = .ok content →
      after.read (cache.file digest name) = .ok content) :
    cache.readArtifact? after digest name = cache.readArtifact? w digest name ∨
      (∀ content, w.read (cache.file digest name) ≠ .ok content) ∧
        ∃ content, contentAt? w.files (artifactPlace place digest name) = some content ∧
          cache.readArtifact? after digest name = Artifact.decode? content := by
  cases read : w.read (cache.file digest name) with
  | ok content =>
    exact Or.inl (by rw [read_artifact_of_read read, read_artifact_of_read (found content read)])
  | error lost =>
    cases later : after.read (cache.file digest name) with
    | ok content =>
      have there := same.symm.trans (read_in_cache placed plain later)
      exact Or.inr ⟨by simp, content, there, read_artifact_of_read later⟩
    | error lost' => exact Or.inl (by rw [unread_artifact read, unread_artifact later])

/-- After a change that leaves the file of an artifact alone, it is found where it was found. -/
theorem found_of_confined {changed : Location → Prop} {digest : Digest} {name : String}
    {content : Bytes} (placed : Placed cache place w) (plain : Plain name)
    (confined : Confined changed w after)
    (same : contentAt? after.files (artifactPlace place digest name) =
      contentAt? w.files (artifactPlace place digest name))
    (read : w.read (cache.file digest name) = .ok content) :
    after.read (cache.file digest name) = .ok content :=
  read_later placed confined (by simp) (artifact_plain digest plain) read
    (same.trans (read_in_cache placed plain read))

/-- The locations of the files that a writer may have changed. -/
def Reaches (place : Location) (front : List String) (job : Job) (process : Nat) (stage : Stage)
    (location : Location) : Prop :=
  (∃ number, location = hiddenPlace place front job process number) ∨
    stage = .moved ∧ location = filePlace place front job

theorem reaches_of_touches {process : Nat} {location : Location}
    (touched : stage.Touches place front job process location) :
    Reaches place front job process stage location := by
  cases stage with
  | opened number handle written => exact Or.inl ⟨number, touched⟩
  | starting => cases touched
  | named number => cases touched
  | moved => cases touched

/-- What a lone writer changes, wherever it stops: no file but its temporary ones, and if it has moved
its file the file itself, which has the whole content then. -/
theorem progress_effect (placed : Placed cache place w) (inside : Inside cache front job)
    (progress : Progress job (w, .starting) (after, stage)) :
    Confined (Reaches place front job w.process stage) w after ∧
      (stage = .moved → contentAt? after.files (filePlace place front job) = some job.content) := by
  have run : ∀ {point}, Progress job (w, .starting) point →
      Confined (Reaches place front job w.process point.2) w point.1 ∧
      (point.2 ≠ .moved → Holds place front job w.process point.1.files point.2) ∧
      (point.2 = .moved →
        contentAt? point.1.files (filePlace place front job) = some job.content) := by
    intro point progress
    induction progress with
    | refl => exact ⟨confined_refl _ w, fun _ => trivial, by simp⟩
    | @tail before point _ step ih =>
      obtain ⟨middle, reached⟩ := before
      obtain ⟨after, next⟩ := point
      obtain ⟨confined, holds, -⟩ := ih
      dsimp only at confined holds ⊢
      have open_ : reached ≠ .moved := by
        rintro rfl
        cases step
      have wider : ∀ location, Reaches place front job w.process reached location →
          Reaches place front job w.process next location := by
        rintro location (own | ⟨done, -⟩)
        · exact Or.inl own
        · exact absurd done open_
      have before := confined_mono confined wider
      have holds := holds open_
      rw [← confined.process] at holds
      have placed := placed_of_confined placed confined
      by_cases moves : next = .moved
      · subst moves
        obtain ⟨number, -, confined', content, -⟩ := advance_moves placed inside holds step
        rw [confined.process] at confined'
        refine ⟨confined_trans before (confined_mono confined' ?_), by simp, fun _ => content⟩
        rintro location (own | final)
        · exact Or.inl ⟨number, own⟩
        · exact Or.inr ⟨rfl, final⟩
      · obtain ⟨holds, confined'⟩ := advance_keeps placed inside holds step moves
        rw [confined.process] at holds confined'
        exact ⟨confined_trans before (confined_mono confined' fun _ => reaches_of_touches),
          fun _ => holds, fun done => absurd done moves⟩
  exact ⟨(run progress).1, (run progress).2.2⟩

/-- A writer that is still making directories has changed no file. -/
theorem starting_effect (progress : Progress job (w, .starting) (after, .starting)) :
    Confined (fun _ => False) w after := by
  have run : ∀ {point}, Progress job (w, .starting) point → point.2 = .starting →
      Confined (fun _ => False) w point.1 := by
    intro point progress
    induction progress with
    | refl => exact fun _ => confined_refl _ w
    | tail _ step ih =>
      intro still
      cases step with
      | makeDirectory _ made =>
        exact confined_trans (ih rfl) (confined_grown (make_directory_grown made))
      | name => cases still
      | create => cases still
      | extend => cases still
      | move => cases still
  exact run progress rfl

end Effects

end ContractBuild.WriterSteps
