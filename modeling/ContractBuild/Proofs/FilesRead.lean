import ContractBuild.Proofs.Resolution
import Mathlib.Data.List.Dedup
import Mathlib.Data.List.Perm.Subperm

/-! Resolution comes to an end and reads each file once, however the imports run in circles and however
long their paths grow. What a visit reads has not been visited before and is visited from then on; each
file that is entered leaves one less to enter, so that the calls are nested no deeper than the file tree
has entries. -/
namespace ContractBuild.FilesRead
open FileTree ImportTargets Resolution Source SourceReach

/-- The places of a tree that hold a regular file. -/
def regularFiles (files : FileTree) : List Location :=
  ((files.entries.map Prod.fst).filter fun location =>
    match files.get? location with
    | some (.file ..) => true
    | _ => false).dedup

section Regular
variable {files : FileTree} {here location : Location} {path : Path}

theorem mem_regular_files : location ∈ regularFiles files ↔
    ∃ content executable, files.get? location = some (.file content executable) := by
  rw [regularFiles, List.mem_dedup, List.mem_filter]
  constructor
  · rintro ⟨-, regular⟩
    split at regular
    · rename_i content executable held
      exact ⟨content, executable, held⟩
    · cases regular
  · rintro ⟨content, executable, held⟩
    refine ⟨?_, by rw [held]⟩
    unfold FileTree.get? at held
    split at held
    · cases held
    · obtain ⟨entry, found, -⟩ := Option.map_eq_some_iff.mp held
      obtain rfl : entry.1 = location := by simpa using List.find?_some found
      exact List.mem_map_of_mem (List.mem_of_find?_eq_some found)

/-- A path that leads to a file leads to one of the regular files. -/
theorem regular_of_file (found : fileFrom? files here path = some location) :
    location ∈ regularFiles files := by
  obtain ⟨content, executable, looked⟩ := file_from_iff.mp found
  exact mem_regular_files.mpr ⟨content, executable, get?_of_lookup looked⟩

end Regular

/-- Reads on from a walk are of files that it has not visited, each of them once, and all that has
been visited by then is visited in the end, if an end is reached. -/
structure Once (search : Search) (walk : Walk) (reads : List Path) (reached : Option Walk) : Prop where
  new : ∀ path ∈ reads, ∃ location,
    fileFrom? search.files search.here path = some location ∧ walk.keyOf? location = none
  apart : (reads.map (fileFrom? search.files search.here)).Nodup
  kept : ∀ after ∈ reached, ∀ location, Seen walk location → Seen after location
  seen : ∀ after ∈ reached, ∀ path ∈ reads, ∀ location,
    fileFrom? search.files search.here path = some location → Seen after location

section Once
variable {search : Search} {walk middle : Walk} {path : Path} {location : Location} {key : String}
  {reads reads' : List Path} {reached reached' : Option Walk}

theorem once_nothing (kept : ∀ after ∈ reached, ∀ location, Seen walk location → Seen after location) :
    Once search walk [] reached where
  new := by simp
  apart := List.nodup_nil
  kept := kept
  seen := by simp

theorem once_enter (found : fileFrom? search.files search.here path = some location)
    (new : walk.keyOf? location = none) (key : String) :
    Once search walk [path] (some (walk.visit location key)) where
  new := by simpa using ⟨location, found, new⟩
  apart := List.nodup_singleton _
  kept := by
    rintro _ ⟨⟩ other seen
    rw [Seen, key_of_visit]
    split
    · rfl
    · exact seen
  seen := by
    rintro _ ⟨⟩ _ among other found'
    rw [List.mem_singleton.mp among, found] at found'
    obtain rfl := Option.some.inj found'
    simp [Seen, key_of_visit]

/-- What is read later is not among what has been read before. -/
theorem once_append (first : Once search walk reads (some middle))
    (second : Once search middle reads' reached) : Once search walk (reads ++ reads') reached where
  new path among := by
    rcases List.mem_append.mp among with among | among
    · exact first.new path among
    · obtain ⟨location, found, new⟩ := second.new path among
      refine ⟨location, found, ?_⟩
      by_contra seen
      have kept := first.kept _ rfl location (Option.isSome_iff_ne_none.mpr seen)
      rw [Seen, new] at kept
      cases kept
  apart := by
    rw [List.map_append]
    refine List.nodup_append.mpr ⟨first.apart, second.apart, ?_⟩
    rintro _ early _ late rfl
    obtain ⟨path, among, own⟩ := List.mem_map.mp early
    obtain ⟨path', among', own'⟩ := List.mem_map.mp late
    obtain ⟨location, found, new⟩ := second.new path' among'
    have seen := first.seen _ rfl path among location (by rw [own, ← own', found])
    rw [Seen, new] at seen
    cases seen
  kept after ends location seen := second.kept after ends location (first.kept _ rfl location seen)
  seen after ends path among location found := by
    rcases List.mem_append.mp among with among | among
    · exact second.kept after ends location (first.seen _ rfl path among location found)
    · exact second.seen after ends path among location found

/-- An end that forgets nothing of another one does as well. -/
theorem once_ends (once : Once search walk reads reached)
    (on : ∀ after ∈ reached', ∃ before ∈ reached, ∀ location, Seen before location →
      Seen after location) :
    Once search walk reads reached' where
  new := once.new
  apart := once.apart
  kept after ends location seen := by
    obtain ⟨before, ended, keeps⟩ := on after ends
    exact keeps location (once.kept before ended location seen)
  seen after ends path among location found := by
    obtain ⟨before, ended, keeps⟩ := on after ends
    exact keeps location (once.seen before ended path among location found)

end Once

section Calls
variable {search : Search} {root : Option Location} {walk : Walk} {path importer : Path}
  {location : Location} {content : Bytes} {executable : Bool} {text : List Char} {bound : Nat}

/-- The walk that a call ends with, if it does not fail. -/
def ended {α : Type} (logged : Logged (Onward search.files walk α)) : Option Walk :=
  logged.outcome.toOption.map Onward.reached

theorem ended_eq_some {α : Type} {logged : Logged (Onward search.files walk α)} {after : Walk} :
    ended logged = some after ↔ ∃ onward, logged.outcome = .ok onward ∧ onward.reached = after := by
  rw [ended, Option.map_eq_some_iff]
  cases logged.outcome <;> simp [Except.toOption]

/-- A call reads each file once, by calls that are nested no deeper than a bound. -/
def ReadsOnce {α : Type} (logged : Logged (Onward search.files walk α)) (bound : Nat) : Prop :=
  Once search walk logged.reads (ended logged) ∧ logged.depth ≤ bound

/-- A file that is entered has not forgotten what its imports have visited when it is left. -/
theorem kept_by_file {key : String} {after : Walk}
    (looked : search.files.lookup search.here path = .ok (location, .file content executable))
    (new : walk.keyOf? location = none) (decoded : Text.ofUtf8? content = some text)
    (named : (Digest.ofContent content).fileName search.language = key)
    (ends : ended (visitLogged search root walk path) = some after) :
    ∃ before, ended (visitImportsLogged search root (walk.visit location key) path
        (Import.scan text)) = some before ∧
      ∀ location, Seen before location → Seen after location := by
  obtain ⟨onward, outcome, rfl⟩ := ended_eq_some.mp ends
  rw [logged_file looked new decoded named] at outcome
  dsimp only at outcome
  split at outcome
  · cases outcome
  · rename_i replacements before grown walked
    refine ⟨before, ended_eq_some.mpr ⟨_, walked, rfl⟩, ?_⟩
    split at outcome
    · split at outcome
      · obtain rfl := Except.ok.inj outcome
        exact fun _ seen => seen
      · cases outcome
    · obtain rfl := Except.ok.inj outcome
      exact fun _ seen => seen

/-- The imports of a file are read once if what each leads to is, and are nested no deeper. -/
theorem imports_read_once (importer : Path)
    (each : ∀ {walk path location}, walk.unvisited search.files < bound →
      fileFrom? search.files search.here path = some location →
      ReadsOnce (visitLogged search root walk path) bound)
    (imports : List Import) (few : walk.unvisited search.files < bound) :
    ReadsOnce (visitImportsLogged search root walk importer imports) bound := by
  induction imports generalizing walk with
  | nil =>
    rw [visitImportsLogged]
    refine ⟨once_nothing ?_, Nat.zero_le _⟩
    rintro _ ⟨⟩ _ seen
    exact seen
  | cons directive rest ih =>
    rw [visitImportsLogged]
    cases located : search.locate? (importer.parent?.getD ⟨"."⟩) directive.path with
    | none =>
      refine ⟨once_nothing ?_, Nat.zero_le _⟩
      rintro _ ⟨⟩
    | some target =>
      obtain ⟨location, file⟩ := located_file located
      obtain ⟨once, shallow⟩ := each few file
      dsimp only
      split
      · refine ⟨once_ends once ?_, shallow⟩
        rintro _ ⟨⟩
      · rename_i key reached grown visited
        rw [ended_eq_some.mpr ⟨_, visited, rfl⟩] at once
        obtain ⟨others, shallow'⟩ := ih (Nat.lt_of_le_of_lt grown few)
        refine ⟨once_ends (once_append once others) fun after ends => ?_,
          Nat.max_le.mpr ⟨shallow, shallow'⟩⟩
        obtain ⟨onward, outcome, rfl⟩ := ended_eq_some.mp ends
        dsimp only at outcome
        split at outcome
        · cases outcome
        · rename_i walked
          obtain rfl := Except.ok.inj outcome
          exact ⟨_, ended_eq_some.mpr ⟨_, walked, rfl⟩, fun _ seen => seen⟩

/-- The visit of a file reads each file once, by calls that are nested no deeper than files are left: a
file that is entered is one less, also for the files that its imports lead to. -/
theorem visit_reads_once (root : Option Location) (few : walk.unvisited search.files < bound)
    (found : fileFrom? search.files search.here path = some location) :
    ReadsOnce (visitLogged search root walk path) bound := by
  induction bound generalizing walk path location with
  | zero => cases few
  | succ bound ih =>
    obtain ⟨content, executable, looked⟩ := file_from_iff.mp found
    cases seen : walk.keyOf? location with
    | some key =>
      rw [logged_seen looked seen]
      refine ⟨once_nothing ?_, Nat.le_add_left ..⟩
      rintro _ ⟨⟩ _ seen
      exact seen
    | none =>
      have entered := once_enter found seen
      cases decoded : Text.ofUtf8? content with
      | none =>
        rw [logged_undecodable looked seen decoded]
        refine ⟨once_ends (entered "") ?_, Nat.le_add_left ..⟩
        rintro _ ⟨⟩
      | some text =>
        obtain ⟨key, named⟩ : ∃ key, (Digest.ofContent content).fileName search.language = key :=
          ⟨_, rfl⟩
        have fewer := Walk.unvisited_visit_lt key (get?_of_lookup looked) (by simp) seen
        obtain ⟨once, shallow⟩ := imports_read_once path ih (Import.scan text)
          (Nat.lt_of_lt_of_le fewer (Nat.le_of_lt_succ few))
        have logged := @logged_file search root walk path _ _ _ _ _ looked seen decoded named
        refine ⟨?_, by simpa only [logged] using Nat.succ_le_succ shallow⟩
        have reads : (visitLogged search root walk path).reads =
            [path] ++ (visitImportsLogged search root (walk.visit location key) path
              (Import.scan text)).reads := by rw [logged, List.singleton_append]
        rw [reads]
        exact once_ends (once_append (entered key) once) fun after ends =>
          kept_by_file looked seen decoded named ends

/-- What is no file is read in vain, and nothing is read after that. -/
theorem reads_no_file (root : Option Location)
    (missing : fileFrom? search.files search.here path = none)
    (new : ∀ location, walk.keyOf? location = none) :
    (visitLogged search root walk path).reads = [path] ∧
      (visitLogged search root walk path).depth = 1 := by
  cases looked : search.files.lookup search.here path with
  | error cause => simp only [logged_unread looked, and_self]
  | ok reached =>
    obtain ⟨location, node⟩ := reached
    cases node with
    | file content executable =>
      rw [file_from_iff.mpr ⟨content, executable, looked⟩] at missing
      cases missing
    | directory => simp only [logged_no_file looked (new location) (by simp), and_self]
    | link target => simp only [logged_no_file looked (new location) (by simp), and_self]

end Calls

/-- Resolution of any entry in any file tree comes to an end, by calls that are nested no deeper than
the tree has entries, be it with a bundle or with an error. It reads no file twice, so that it reads at
most as many files as there are regular ones; only an entry that is not one of them is read in vain. -/
theorem resolve_reads_once (search : Search) (entry : Path) :
    ∃ reads depth,
      resolveLogged search entry = ⟨reads, depth, resolve search entry⟩ ∧
      depth ≤ search.files.entries.length + 1 ∧
      (reads.map (fileFrom? search.files search.here)).Nodup ∧
      reads.length ≤ (regularFiles search.files).length +
        if (fileFrom? search.files search.here entry).isSome then 0 else 1 := by
  refine ⟨_, _, rfl, ?_⟩
  cases found : fileFrom? search.files search.here entry with
  | none =>
    have start : ∀ location, Walk.start.keyOf? location = none := fun _ => rfl
    obtain ⟨reads, depth⟩ := reads_no_file
      (search.files.canonical search.here entry.directory).toOption found start
    simp only [reads, depth]
    exact ⟨Nat.le_add_left .., List.nodup_singleton _, Nat.le_add_left ..⟩
  | some location =>
    have few : Walk.start.unvisited search.files < search.files.entries.length + 1 :=
      Nat.lt_succ_of_le List.countP_le_length
    obtain ⟨once, shallow⟩ :=
      visit_reads_once (search.files.canonical search.here entry.directory).toOption few found
    refine ⟨shallow, once.apart, ?_⟩
    have among : (resolveLogged search entry).reads.map (fileFrom? search.files search.here) ⊆
        (regularFiles search.files).map some := by
      intro file listed
      obtain ⟨path, read, rfl⟩ := List.mem_map.mp listed
      obtain ⟨location, found, -⟩ := once.new path read
      rw [found]
      exact List.mem_map_of_mem (regular_of_file found)
    have bounded := (List.subperm_of_subset once.apart among).length_le
    rwa [List.length_map, List.length_map] at bounded

end ContractBuild.FilesRead
