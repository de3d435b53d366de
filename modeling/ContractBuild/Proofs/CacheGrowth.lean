import ContractBuild.Proofs.CacheRoom
import ContractBuild.Proofs.SourcesWritten
import Mathlib.Tactic.IntervalCases

/-! A cache that grows, with results and sources of one digest after the other. Where its root is there,
what has not been written yet has room, and the next temporary name is free, so all work on files
succeeds; and the first piece of work makes the root if it is missing. -/
namespace ContractBuild.CacheGrowth
open ByteForms CacheChange CachePlace CacheRoom FileTree PathPieces PathRoute PathWalk SourcesSpared
open SourcesWritten WriterSteps WrittenFiles

variable {cache : Cache} {place : Location} {digest : Digest} {w : Workspace} {count : Nat}
  {digests : List Digest} {request : Request} {key : String}

section Names

/-- The path of a source is taken by the system if the name of the source is short enough. -/
theorem source_accepted (roomy : Roomy cache.root) (digest : Digest)
    (whole : '\x00' ∉ key.toList) (visible : key ≠ "") (short : Text.byteLength key.toList ≤ 255) :
    Accepted ((cache.sources digest).join ⟨key⟩) := by
  obtain ⟨accepted, size⟩ := directory_accepted roomy digest
  obtain ⟨accepted', size'⟩ := accepted_join 3 accepted.whole sources_fit.whole
    (plain_visible sources_plain) (by decide) (by simp only [maxPathBytes]; omega)
  refine (accepted_join 255 accepted'.whole whole visible short ?_).1
  simp only [maxPathBytes]
  omega

/-- A name whose first ten temporary names are names as well. -/
structure Short (key : String) : Prop where
  fit : Fit key
  lasting : Lasting key
  size : Text.byteLength key.toList ≤ 240

/-- The first ten temporary names of the first process fit. -/
theorem hidden_fit (fit : Fit key) (size : Text.byteLength key.toList ≤ 240) {number : Nat}
    (few : number < 10) : Fit (hiddenName key 1 number) := by
  have plain := (temporary_plain fit.plain 1 number).1
  have digits : Text.byteLength (toString number).toList = 1 ∧
      '\x00' ∉ (toString number).toList := by
    interval_cases number <;> decide
  have first : Text.byteLength (toString 1).toList = 1 ∧ '\x00' ∉ (toString 1).toList := by decide
  have marks : Text.byteLength ".".toList = 1 ∧ Text.byteLength ".tmp".toList = 4 ∧
      '\x00' ∉ ".".toList ∧ '\x00' ∉ ".tmp".toList := by decide
  have text : (hiddenName key 1 number).toList = ".".toList ++ key.toList ++ ".".toList ++
      (toString 1).toList ++ ".".toList ++ (toString number).toList ++ ".tmp".toList := by
    simp only [hiddenName, String.toList_append]
    rfl
  refine ⟨plain, ⟨plain.busy, plain.inner, ?_⟩, ?_⟩
  · rw [text]
    simp only [byte_length_append, maxNameBytes]
    omega
  · rw [text]
    simp only [List.mem_append, not_or]
    exact ⟨⟨⟨⟨⟨⟨marks.2.2.1, fit.whole⟩, marks.2.2.1⟩, first.2⟩, marks.2.2.1⟩, digits.2⟩,
      marks.2.2.2⟩

end Names

section Sources
variable {directory : Path} {location : Location}

/-- The directory for the sources of a new digest is made, and nothing else. -/
theorem makes_sources (rooted : Rooted cache place w) (roomy : Roomy cache.root)
    (above : (cache.sources digest).parent? = some (cache.directory digest))
    (new : ∀ location, place ++ [digest.toHex] <+: location → w.files.get? location = none) :
    ∃ files, Disk.makeDirectories (DispatchError.materialize (cache.sources digest))
        (cache.sources digest) w = .ok () { w with files } ∧
      Rooted ⟨cache.sources digest⟩ (place ++ [digest.toHex] ++ [Cache.sourcesName])
        { w with files } ∧
      ∀ other, files.get? other =
        if other = place ++ [digest.toHex] ++ [Cache.sourcesName] then some .directory
        else if other = place ++ [digest.toHex] then some .directory
        else w.files.get? other := by
  obtain ⟨files, made, rooted, held⟩ := makes_grandchild rooted (to_hex_fit digest) sources_fit
    (directory_accepted roomy digest).1 (file_accepted roomy digest sources_fit) above
    (new _ List.prefix_rfl) (new _ (List.prefix_append ..))
  exact ⟨files, directories_made _ made, rooted, held⟩

/-- A directory in which there is nothing but sources, and room for more. -/
structure Spacious (directory : Path) (location : Location) (count : Nat) (w : Workspace) : Prop where
  rooted : Rooted ⟨directory⟩ location w
  process : w.process = 1
  issued : w.issued ≤ count
  held : ∀ name node, w.files.get? (location ++ [name]) = some node →
    Lasting name ∧ ∃ content executable, node = .file content executable

/-- A source is written as a whole where it is not there yet. -/
theorem writes_source (spacious : Spacious directory location count w)
    (accepted : ∀ name, Fit name → Accepted (directory.join ⟨name⟩)) (short : Short key)
    (few : count < 10) (content : Bytes) :
    ∃ after, Disk.writeWhole DispatchError.materialize directory key content w =
        .ok (directory.join ⟨key⟩) after ∧
      Spacious directory location (count + 1) after ∧
      ∀ other, ¬ location <+: other → after.files.get? other = w.files.get? other := by
  have fit : Fit s!".{key}.{w.process}.{w.issued}.tmp" := by
    rw [spacious.process]
    exact hidden_fit short.fit short.size (Nat.lt_of_le_of_lt spacious.issued few)
  have free : w.files.get? (location ++ [s!".{key}.{w.process}.{w.issued}.tmp"]) = none :=
    Option.eq_none_iff_forall_ne_some.mpr fun node there =>
      (spacious.held _ node there).1 key w.process w.issued rfl
  have open_ : w.files.get? (location ++ [key]) ≠ some .directory := by
    intro there
    obtain ⟨-, content, executable, same⟩ := spacious.held key _ there
    cases same
  obtain ⟨after, wrote, here, held⟩ := writes_whole_child DispatchError.materialize content
    spacious.rooted short.fit fit accepted free open_
  obtain ⟨files, files', -, -, rfl⟩ := write_whole_ok wrote
  have noWay : NoWay w.files (location ++ [key]) := by
    cases there : w.files.get? (location ++ [key]) with
    | none => exact Or.inl there
    | some node =>
      obtain ⟨-, content, executable, rfl⟩ := spacious.held key node there
      exact Or.inr ⟨content, executable, there⟩
  have ways : KeepsWays w.files files' :=
    keeps_ways_of_no_way noWay fun other different => by rw [held, if_neg different]
  refine ⟨_, wrote, ⟨walk_later ways rfl spacious.rooted (.kept location), spacious.process,
    Nat.succ_le_succ spacious.issued, fun name node there => ?_⟩, fun other outside => ?_⟩
  · rw [held] at there
    split at there
    · rename_i same
      obtain rfl : name = key := by simpa using same
      exact ⟨short.lasting, content, false, (Option.some.inj there).symm⟩
    · exact spacious.held name node there
  · rw [held, if_neg]
    rintro rfl
    exact outside (List.prefix_append ..)

/-- All sources of a request are written, those that are there being passed over. -/
theorem writes_sources {files : List (String × Source.IncludedFile)}
    (spacious : Spacious directory location count w)
    (accepted : ∀ name, Fit name → Accepted (directory.join ⟨name⟩))
    (short : ∀ entry ∈ files, Short entry.1) (few : count + files.length ≤ 10) :
    ∃ after, InstalledCompiler.writeSources directory files w = .ok () after ∧
      Spacious directory location (count + files.length) after ∧
      ∀ other, ¬ location <+: other → after.files.get? other = w.files.get? other := by
  induction files generalizing w count with
  | nil => exact ⟨w, rfl, spacious, fun _ _ => rfl⟩
  | cons entry files ih =>
    obtain ⟨key, file⟩ := entry
    have short' : ∀ entry ∈ files, Short entry.1 :=
      fun entry inside => short entry (List.mem_cons_of_mem _ inside)
    rw [List.length_cons] at few
    rw [write_sources_cons, List.length_cons, Nat.add_comm files.length, ← Nat.add_assoc]
    by_cases there : w.isFile (directory.join ⟨key⟩) = true
    · rw [if_pos there]
      exact ih ⟨spacious.rooted, spacious.process, Nat.le_succ_of_le spacious.issued, spacious.held⟩
        short' (by omega)
    · rw [if_neg there]
      obtain ⟨middle, wrote, spacious', same⟩ := writes_source spacious accepted
        (short (key, file) (by simp)) (by omega) (Text.utf8 file.script.toList)
      obtain ⟨after, rest, spacious'', same'⟩ := ih spacious' short' (by omega)
      exact ⟨after, (bind_of_ok wrote _).trans rest, spacious'', fun other outside =>
        (same' other outside).trans (same other outside)⟩

end Sources

section Growth

/-- A cache whose root is there and in which nothing belongs to other digests than these. -/
structure Stocked (cache : Cache) (place : Location) (digests : List Digest) (count : Nat)
    (w : Workspace) : Prop where
  rooted : Rooted cache place w
  placed : Placed cache place w
  process : w.process = 1
  issued : w.issued ≤ count
  new : ∀ digest ∉ digests, ∀ location, place ++ [digest.toHex] <+: location →
    w.files.get? location = none

/-- What belongs to one digest belongs to no other. -/
theorem apart_of_digests {other : Digest} {location : Location} (different : other ≠ digest)
    (own : place ++ [other.toHex] <+: location) : ¬ place ++ [digest.toHex] <+: location := by
  obtain ⟨rest, rfl⟩ := own
  rintro ⟨rest', same⟩
  simp only [List.append_assoc, List.append_cancel_left_eq, List.cons_append, List.nil_append,
    List.cons.injEq] at same
  exact different (to_hex_injective same.1).symm

/-- A response can be put for a digest that nothing belongs to. -/
theorem stocked_put (stocked : Stocked cache place digests count w) (roomy : Roomy cache.root)
    (new : digest ∉ digests) (few : count < 10) (response : Response) (version : String) :
    ∃ after, cache.put digest response version w = .ok () after ∧
      Stocked cache place (digest :: digests) (count + 1) after := by
  have fit : Fit s!".{Cache.resultName}.{w.process}.{w.issued}.tmp" := by
    rw [stocked.process]
    exact hidden_fit result_fit (by decide) (Nat.lt_of_le_of_lt stocked.issued few)
  obtain ⟨after, put, filled⟩ :=
    put_succeeds response version stocked.rooted roomy (stocked.new digest new) fit
  have placed := (put_effect stocked.placed put).1
  have rooted := rooted_of_filled stocked.rooted (stocked.new digest new) filled
  obtain ⟨written, artifact⟩ := artifact_of_put put
  obtain ⟨⟨⟩, made, making, whole⟩ := ok_of_bind artifact
  obtain ⟨built, -, rfl⟩ := make_directories_ok making
  obtain ⟨files, files', -, -, rfl⟩ := write_whole_ok whole
  refine ⟨_, put, rooted, placed, stocked.process, Nat.succ_le_succ stocked.issued,
    fun other outside location own => ?_⟩
  obtain ⟨different, outside⟩ := not_or.mp (mt List.mem_cons.mpr outside)
  rw [filled.elsewhere location (apart_of_digests different own)]
  exact stocked.new other outside location own

/-- The sources of a request can be written for a digest that nothing belongs to. -/
theorem stocked_materialize (stocked : Stocked cache place digests count w)
    (roomy : Roomy cache.root)
    (above : (cache.sources digest).parent? = some (cache.directory digest))
    (new : digest ∉ digests) (short : ∀ entry ∈ request.includes.entries, Short entry.1)
    (few : count + request.includes.entries.length ≤ 10) :
    ∃ after, InstalledCompiler.materialize request (cache.sources digest) w = .ok () after ∧
      Stocked cache place (digest :: digests) (count + request.includes.entries.length) after := by
  obtain ⟨files, making, rooted, held⟩ :=
    makes_sources stocked.rooted roomy above (stocked.new digest new)
  have bare : ∀ name,
      files.get? (place ++ [digest.toHex] ++ [Cache.sourcesName] ++ [name]) = none := by
    intro name
    rw [held, if_neg (by simp), if_neg (by simp)]
    exact stocked.new digest new _ (by simp)
  have spacious : Spacious (cache.sources digest)
      (place ++ [digest.toHex] ++ [Cache.sourcesName]) count { w with files } :=
    ⟨rooted, stocked.process, stocked.issued, fun name node there => by
      cases (bare name).symm.trans there⟩
  have accepted : ∀ name, Fit name → Accepted ((cache.sources digest).join ⟨name⟩) :=
    fun name fit =>
      source_accepted roomy digest fit.whole (plain_visible fit.plain) fit.isName.short
  obtain ⟨after, wrote, spacious, same⟩ := writes_sources spacious accepted short few
  have done : InstalledCompiler.materialize request (cache.sources digest) w = .ok () after :=
    (bind_of_ok making _).trans wrote
  have writing := writing_of_materialize request (cache.sources digest) w
  rw [done] at writing
  have writing : Writing (cache.sources digest) request.includes.entries w after := writing
  have confined := (writing_effect stocked.placed (fun entry inside => (short entry inside).fit.plain)
    writing).1
  refine ⟨after, done, ?_, placed_of_confined stocked.placed confined, spacious.process,
    spacious.issued, fun other outside location own => ?_⟩
  · have rooted := walk_later confined.ways rfl stocked.rooted (.kept place)
    rwa [Rooted, origin, confined.here]
  · obtain ⟨different, outside⟩ := not_or.mp (mt List.mem_cons.mpr outside)
    have apart := apart_of_digests different own
    rw [same location fun inside => apart ((List.prefix_append ..).trans inside), held, if_neg,
      if_neg]
    · exact stocked.new other outside location own
    · rintro rfl
      exact apart List.prefix_rfl
    · rintro rfl
      exact apart (List.prefix_append ..)

end Growth

section Roots
variable {files : FileTree}

/-- Where a root can be made, making the directory of a digest in the missing root is making it in the
root that is there then. -/
theorem makes_in_made_root (roomy : Roomy cache.root)
    (early : w.files.makeDirectory w.here (cache.directory digest) = .error .notFound)
    (above : (cache.directory digest).parent? = some cache.root)
    (made : w.files.makeDirectories w.here cache.root = (.ok (), files))
    (rooted : Rooted cache place { w with files })
    (free : files.get? (place ++ [digest.toHex]) = none) :
    w.files.makeDirectories w.here (cache.directory digest) =
      files.makeDirectories w.here (cache.directory digest) := by
  obtain ⟨accepted, -⟩ := directory_accepted roomy digest
  have late : files.makeDirectory w.here (cache.directory digest) =
      .ok (files.set (place ++ [digest.toHex]) .directory) := by
    rw [makeDirectory, find_directory rooted roomy free]
  rw [makes_above accepted.nonempty early above made, makeDirectories, if_neg accepted.nonempty, late]

/-- So is making the directory for the sources of the digest. -/
theorem makes_sources_in_made_root (roomy : Roomy cache.root)
    (early : w.files.makeDirectory w.here (cache.sources digest) = .error .notFound)
    (above : (cache.sources digest).parent? = some (cache.directory digest))
    (same : w.files.makeDirectories w.here (cache.directory digest) =
      files.makeDirectories w.here (cache.directory digest))
    (rooted : Rooted cache place { w with files })
    (free : files.get? (place ++ [digest.toHex]) = none) :
    w.files.makeDirectories w.here (cache.sources digest) =
      files.makeDirectories w.here (cache.sources digest) := by
  have accepted : Accepted (cache.sources digest) := file_accepted roomy digest sources_fit
  have made := (makes_child rooted (to_hex_fit digest) (directory_accepted roomy digest).1 free).1
  have late := no_grandchild rooted (to_hex_fit digest) sources_fit accepted free
  rw [makes_above accepted.nonempty early above (same.trans made)]
  exact (makes_above accepted.nonempty late above made).symm

/-- What begins by making directories does the same before and after the root has been made. -/
private theorem disk_in_made_root {ε α : Type} {path : Path}
    (same : w.files.makeDirectories w.here path = files.makeDirectories w.here path)
    (fail : FileError → ε) (next : Unit → Disk ε α) :
    (Disk.makeDirectories fail path >>= next) w =
      (Disk.makeDirectories fail path >>= next) { w with files } := by
  have making : Disk.makeDirectories fail path w =
      Disk.makeDirectories fail path { w with files } := by
    unfold Disk.makeDirectories
    rw [same]
  simp only [bind, EStateM.bind, making]

/-- A put makes the missing root of a cache and is then the put into the cache that is there. -/
theorem put_in_made_root
    (same : w.files.makeDirectories w.here (cache.directory digest) =
      files.makeDirectories w.here (cache.directory digest)) (payload : Bytes) (version : String) :
    cache.putPayload digest payload version w =
      cache.putPayload digest payload version { w with files } := by
  simp only [Cache.putPayload, Cache.writeArtifact, bind_assoc]
  exact disk_in_made_root same _ _

/-- So is writing the sources of a request. -/
theorem materialize_in_made_root
    (same : w.files.makeDirectories w.here (cache.sources digest) =
      files.makeDirectories w.here (cache.sources digest)) :
    InstalledCompiler.materialize request (cache.sources digest) w =
      InstalledCompiler.materialize request (cache.sources digest) { w with files } :=
  disk_in_made_root same _ _

end Roots

end ContractBuild.CacheGrowth
