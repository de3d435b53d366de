import ContractBuild.Proofs.CacheFootprint
import ContractBuild.Proofs.ConfinedSources
import ContractBuild.Proofs.DetourRoot
import Mathlib.Data.Finset.Card
import Mathlib.Data.Finset.Image

/-! A cache is a finite map from digests to entries. The tree of files that runs of its operations
leave mirrors the map: each step of the cache is a step of the map with the same answer, however the
entries of other digests, sources and temporary files lie beside each other on the disk. -/
namespace ContractBuild.CacheMap
open ArtifactFile ByteForms CacheChange CacheFootprint CacheGrowth CachePlace CacheRoom CompileSteps
open ConfinedSources DetourRoot FileTree MovedFiles PathPieces PathRoute PathWalk ShownNames SourcesSeen
open SourcesSpared WrittenFiles

section Runs

/-- What is done with a cache. -/
inductive Operation where
  | put (digest : Digest) (entry : CacheEntry)
  /-- Writes the sources of a request into the directory for the sources of a digest. -/
  | materialize (digest : Digest) (request : Request)
  | get (digest : Digest)
  | getEntry (digest : Digest)
  | contains (digest : Digest)
  | clear

/-- What an operation answers. -/
inductive Answer where
  | done
  | response (found : Option Response)
  | entry (found : Option CacheEntry)
  | held (there : Bool)
  | count (removed : Nat)
  deriving DecidableEq

/-- What an operation on files answers and leaves if it succeeds. -/
def answered {ε α : Type} (answer : α → Answer) :
    EStateM.Result ε Workspace α → Option (Answer × Workspace)
  | .ok value after => some (answer value, after)
  | .error _ _ => none

namespace Operation

/-- Performs an operation whose work on files succeeds. -/
def perform? (cache : Cache) (w : Workspace) : Operation → Option (Answer × Workspace)
  | put digest entry =>
    answered (fun _ => .done) (cache.put digest entry.value entry.compilerVersion w)
  | materialize digest request =>
    answered (fun _ => .done) (InstalledCompiler.materialize request (cache.sources digest) w)
  | get digest => some (.response (cache.get? w digest), w)
  | getEntry digest => some (.entry (cache.getEntry? w digest), w)
  | contains digest => some (.held (cache.contains w digest), w)
  | clear => answered .count (cache.clear w)

/-- The digest that an operation is for; clearing is for all. -/
def digest? : Operation → Option Digest
  | put digest _ | materialize digest _ | get digest | getEntry digest | contains digest =>
    some digest
  | clear => none

end Operation

/-- Performs operations one after the other, all of whose work on files succeeds. -/
def run? (cache : Cache) (w : Workspace) : List Operation → Option (List Answer × Workspace)
  | [] => some ([], w)
  | operation :: operations => do
    let (answer, middle) ← operation.perform? cache w
    let (answers, after) ← run? cache middle operations
    return (answer :: answers, after)

/-- An entry whose lengths fit in the bytes that an artifact file has for them. -/
structure EntryFits (entry : CacheEntry) : Prop where
  value : ResponseFits entry.value
  header : HeaderFits (responseArtifact entry.value entry.compilerVersion)

/-- The entries that are put have lengths that fit, and the sources that are written have names that
stay in the directory they are written into. -/
def Operation.Fits : Operation → Prop
  | put _ entry => EntryFits entry
  | materialize _ request => PlainFiles request
  | _ => True

end Runs

section Contents

/-- A finite map from digests to entries, with the digests that there are directories for. -/
structure Contents where
  found? : Digest → Option CacheEntry
  touched : Finset Digest
  finite : ∀ digest ∉ touched, found? digest = none

namespace Contents

/-- The empty map. -/
def empty : Contents := ⟨fun _ => none, ∅, fun _ _ => rfl⟩

/-- The map with one digest more that there is a directory for. -/
def touch (contents : Contents) (digest : Digest) : Contents where
  found? := contents.found?
  touched := insert digest contents.touched
  finite other outside :=
    contents.finite other fun inside => outside (Finset.mem_insert_of_mem inside)

/-- The map with an entry put for a digest. -/
def put (contents : Contents) (digest : Digest) (entry : CacheEntry) : Contents where
  found? := Function.update contents.found? digest (some entry)
  touched := insert digest contents.touched
  finite other outside := by
    obtain ⟨different, outside⟩ := not_or.mp (mt Finset.mem_insert.mpr outside)
    rw [Function.update_of_ne different]
    exact contents.finite other outside

/-- The map after an operation. -/
def next (contents : Contents) : Operation → Contents
  | .put digest entry => contents.put digest entry
  | .materialize digest _ => contents.touch digest
  | .get _ | .getEntry _ | .contains _ => contents
  | .clear => empty

/-- What the map answers to an operation. -/
def answer (contents : Contents) : Operation → Answer
  | .put .. | .materialize .. => .done
  | .get digest => .response ((contents.found? digest).map CacheEntry.value)
  | .getEntry digest => .entry (contents.found? digest)
  | .contains digest => .held (contents.found? digest).isSome
  | .clear => .count contents.touched.card

/-- What the map answers to operations one after the other. -/
def answers (contents : Contents) : List Operation → List Answer
  | [] => []
  | operation :: operations =>
    contents.answer operation :: (contents.next operation).answers operations

/-- The map after operations that start with the empty one. -/
def afterAll (operations : List Operation) : Contents := operations.foldl next empty

theorem eq_empty {contents : Contents} (none : contents.touched = ∅) : contents = empty := by
  obtain ⟨found?, touched, finite⟩ := contents
  obtain rfl : touched = ∅ := none
  obtain rfl : found? = fun _ => Option.none := funext fun digest => finite digest (by simp)
  rfl

/-- An operation for one digest leaves the entry of every other one as it was. -/
theorem entry_next {contents : Contents} {operation : Operation} {digest other : Digest}
    (own : operation.digest? = some digest) (different : other ≠ digest) :
    (contents.next operation).found? other = contents.found? other := by
  cases operation with
  | put target entry =>
    obtain rfl := Option.some.inj own
    exact Function.update_of_ne different _ _
  | materialize => rfl
  | get => rfl
  | getEntry => rfl
  | contains => rfl
  | clear => cases own

end Contents

end Contents

section Files
variable {cache : Cache} {place : Location} {w after : Workspace} {digest : Digest}
  {contents : Contents} {found : Option CacheEntry} {names : List String}

/-- The file for the result of a digest holds the form of an entry, or it is not there. -/
def Holds (cache : Cache) (place : Location) (w : Workspace) (digest : Digest) :
    Option CacheEntry → Prop
  | some entry => EntryFits entry ∧
      w.read (cache.file digest Cache.resultName) =
        .ok (keptForm entry.value entry.compilerVersion)
  | none => w.files.get? (artifactPlace place digest Cache.resultName) = none

/-- What is found for a digest is what its file holds. -/
theorem found_of_holds (placed : Placed cache place w) (holds : Holds cache place w digest found) :
    cache.getEntry? w digest = found ∧ cache.get? w digest = found.map CacheEntry.value ∧
      cache.contains w digest = found.isSome := by
  cases found with
  | none =>
    have missed : cache.readArtifact? w digest Cache.resultName = none := by
      unfold Cache.readArtifact?
      split
      · rename_i content read
        obtain ⟨executable, there⟩ := file_of_content (read_in_cache placed result_plain read)
        cases there.symm.trans holds
      · rfl
    have absent : cache.getEntry? w digest = none := by
      rw [Cache.getEntry?, missed]
      rfl
    refine ⟨absent, ?_, ?_⟩
    · rw [Cache.get?, absent]
    · rw [Cache.contains, missed]
      rfl
  | some entry =>
    obtain ⟨fits, read⟩ := holds
    have kept : cache.readArtifact? w digest Cache.resultName =
        some (responseArtifact entry.value entry.compilerVersion) := by
      rw [read_artifact_of_read read]
      exact decode_written fits.header
    have whole := response_reads fits.value []
    rw [List.append_nil] at whole
    have there : cache.getEntry? w digest = some entry := entry_of_artifact kept whole
    refine ⟨there, ?_, ?_⟩
    · rw [Cache.get?, there]
    · rw [Cache.contains, kept]
      rfl

/-- A change that does not touch the file leaves what it holds. -/
theorem holds_later (placed : Placed cache place w) (touches : Touches place names w after)
    (aside : ¬ artifactPlace place digest Cache.resultName <+: place ++ names)
    (aside' : ¬ place ++ names <+: artifactPlace place digest Cache.resultName)
    (holds : Holds cache place w digest found) : Holds cache place after digest found := by
  have same := touches.elsewhere _ (artifact_within place digest _) aside aside'
  cases found with
  | none => exact same.trans holds
  | some entry =>
    obtain ⟨fits, read⟩ := holds
    refine ⟨fits, ?_⟩
    unfold Workspace.read FileTree.read at read
    split at read
    · rename_i location content executable looked
      obtain rfl := Except.ok.inj read
      cases find_in_cache placed result_plain (find_of_lookup looked)
      have looked' := file_later touches.ways looked same
      simp only [Workspace.read, FileTree.read, touches.here, looked']
    · cases read
    · cases read

/-- A tree of files mirrors a map: each file for a result holds what the map has for its digest,
every touched digest has a directory, and what is in the place of the cache belongs to a touched
digest. -/
structure Mirrors (cache : Cache) (place : Location) (contents : Contents) (w : Workspace) :
    Prop where
  founded : Founded cache place w
  placed : Placed cache place w
  tidy : (w.files.children place).Nodup
  entries : ∀ digest, Holds cache place w digest (contents.found? digest)
  present : ∀ digest ∈ contents.touched, Present cache place digest w
  owned : ∀ location, place <+: location → w.files.get? location ≠ none →
    ∃ digest ∈ contents.touched, location = place ∨ place ++ [digest.toHex] <+: location

/-- The files of a cache whose root is missing mirror the empty map. -/
theorem mirrors_of_missing (missing : Missing cache place w) :
    Mirrors cache place Contents.empty w where
  founded := missing.toFounded
  placed := placed_of_missing missing
  tidy := by
    have none : w.files.children place = [] := by
      refine List.eq_nil_iff_forall_not_mem.mpr fun name inside => ?_
      exact (mem_children_iff _ _ _).mp inside (missing.absent _ (List.prefix_append ..))
    simp [none]
  entries digest := missing.absent _ (artifact_within place digest _)
  present digest inside := by cases inside
  owned location within there := absurd (missing.absent location within) there

/-- What belongs to another digest is not in the directory of a digest. -/
private theorem result_aside (place : Location) {other : Digest} (different : other ≠ digest) :
    ¬ artifactPlace place other Cache.resultName <+: place ++ [digest.toHex] ∧
      ¬ place ++ [digest.toHex] <+: artifactPlace place other Cache.resultName := by
  constructor
  · intro inside
    have := inside.length_le
    simp [artifactPlace] at this
  · intro inside
    have first := (List.prefix_append_right_inj place).mp inside
    exact different (to_hex_injective (List.cons_prefix_cons.mp first).1.symm)

/-- After a change in the directory of one digest the files mirror the map with what is kept for this
digest now. -/
theorem mirrors_touched {later : Contents} (mirrors : Mirrors cache place contents w)
    (touches : Touches place [digest.toHex] w after) (present : Present cache place digest after)
    (touched : later.touched = insert digest contents.touched)
    (others : ∀ other, other ≠ digest → later.found? other = contents.found? other)
    (own : Holds cache place after digest (later.found? digest)) :
    Mirrors cache place later after where
  founded := founded_of_same_links after mirrors.founded touches.links touches.here
  placed := placed_of_same_links after mirrors.placed touches.links touches.here
  tidy := touches.tidy mirrors.tidy
  entries other := by
    by_cases same : other = digest
    · exact same ▸ own
    · obtain ⟨aside, aside'⟩ := result_aside place same
      rw [others other same]
      exact holds_later mirrors.placed touches aside aside' (mirrors.entries other)
  present other inside := by
    rw [touched] at inside
    rcases Finset.mem_insert.mp inside with rfl | inside
    · exact present
    · exact present_later touches (mirrors.present other inside)
  owned location within there := by
    rw [touched]
    by_cases before : location <+: place ++ [digest.toHex]
    · refine ⟨digest, Finset.mem_insert_self .., ?_⟩
      obtain ⟨rest, rfl⟩ := within
      cases rest with
      | nil => exact Or.inl (List.append_nil _)
      | cons name rest =>
        have inner := (List.prefix_append_right_inj place).mp before
        obtain ⟨rfl, -⟩ := List.cons_prefix_cons.mp inner
        exact Or.inr ⟨rest, by simp⟩
    · by_cases beyond : place ++ [digest.toHex] <+: location
      · exact ⟨digest, Finset.mem_insert_self .., Or.inr beyond⟩
      · rw [touches.elsewhere location within before beyond] at there
        obtain ⟨other, inside, owned⟩ := mirrors.owned location within there
        exact ⟨other, Finset.mem_insert_of_mem inside, owned⟩

/-- There are as many entries in a directory as digests, if they are those of the digests. -/
theorem count_of_digests {files : FileTree} {digests : Finset Digest}
    (tidy : (files.children place).Nodup)
    (present : ∀ digest ∈ digests, files.get? (place ++ [digest.toHex]) ≠ none)
    (owned : ∀ name, files.get? (place ++ [name]) ≠ none →
      ∃ digest ∈ digests, digest.toHex = name) :
    (files.children place).length = digests.card := by
  have same : (files.children place).toFinset = digests.image Digest.toHex := by
    ext name
    rw [List.mem_toFinset, mem_children_iff, Finset.mem_image]
    constructor
    · exact owned name
    · rintro ⟨digest, inside, rfl⟩
      exact present digest inside
  rw [← List.toFinset_card_of_nodup tidy, same,
    Finset.card_image_of_injective _ fun _ _ => to_hex_injective]

/-- What is in the place of a cache and belongs to a digest is in the entry named after it. -/
theorem named_of_owned {name : String}
    (owned : place ++ [name] = place ∨ place ++ [digest.toHex] <+: place ++ [name]) :
    digest.toHex = name := by
  rcases owned with itself | within
  · simp at itself
  · exact (List.cons_prefix_cons.mp ((List.prefix_append_right_inj place).mp within)).1

/-- There are as many directories in the place of a cache as there are touched digests. -/
theorem children_card (mirrors : Mirrors cache place contents w) :
    (w.files.children place).length = contents.touched.card := by
  refine count_of_digests mirrors.tidy (fun digest inside => ?_) fun name there => ?_
  · simp [(mirrors.present digest inside).own]
  · obtain ⟨digest, inside, owned⟩ := mirrors.owned _ (List.prefix_append ..) there
    exact ⟨digest, inside, named_of_owned owned⟩

end Files

section Steps
variable {cache : Cache} {place : Location} {w after : Workspace} {digest : Digest}
  {contents : Contents} {answer : Answer}

theorem mirrors_put {entry : CacheEntry} (mirrors : Mirrors cache place contents w)
    (fits : EntryFits entry)
    (done : cache.put digest entry.value entry.compilerVersion w = .ok () after) :
    Mirrors cache place (contents.put digest entry) after := by
  obtain ⟨touches, present⟩ := put_touches mirrors.founded mirrors.placed done
  obtain ⟨written, artifact⟩ := artifact_of_put done
  obtain ⟨-, -, read⟩ :=
    write_artifact_found (unlinked_of_placed mirrors.placed result_plain digest) artifact
  have own : (contents.put digest entry).found? digest = some entry := Function.update_self ..
  refine mirrors_touched mirrors touches present rfl
    (fun other different => Function.update_of_ne different _ _) ?_
  rw [own]
  exact ⟨fits, read⟩

theorem mirrors_materialize {request : Request} (mirrors : Mirrors cache place contents w)
    (plain : PlainFiles request)
    (done : InstalledCompiler.materialize request (cache.sources digest) w = .ok () after) :
    Mirrors cache place (contents.touch digest) after := by
  obtain ⟨touches, present⟩ := materialize_touches mirrors.founded mirrors.placed plain done
  have apart : Cache.resultName ≠ Cache.sourcesName := by decide
  refine mirrors_touched mirrors (touches_outer touches) present rfl (fun _ _ => rfl)
    (holds_later mirrors.placed touches ?_ ?_ (mirrors.entries digest))
  · simpa [artifactPlace] using apart
  · simpa [artifactPlace] using apart.symm

/-- What mirrors the empty map has nothing in its place, and no directory for sources. -/
theorem bare_of_empty (mirrors : Mirrors cache place Contents.empty w) :
    (∀ location, place <+: location → w.files.get? location = none) ∧
      ∀ digest, w.isDirectory (cache.sources digest) = false := by
  have absent : ∀ location, place <+: location → w.files.get? location = none := by
    intro location within
    by_contra there
    obtain ⟨digest, inside, -⟩ := mirrors.owned location within there
    cases inside
  refine ⟨absent, fun digest => ?_⟩
  by_contra there
  unfold Workspace.isDirectory FileTree.isDirectory at there
  split at there
  · rename_i location looked
    obtain ⟨-, own⟩ := lookup_on_the_way mirrors.placed (visible_of_founded mirrors.founded)
      (artifact_plain digest sources_plain) looked
    cases (absent _ (List.prefix_append ..)).symm.trans own
  · exact there rfl

/-- If there is a touched digest, clearing succeeds and removes the place of the cache. -/
theorem clear_touched (mirrors : Mirrors cache place contents w)
    (touched : contents.touched.Nonempty) :
    cache.clear w = .ok contents.touched.card { w with files := w.files.prune place } := by
  obtain ⟨digest, inside⟩ := touched
  rw [clear_present mirrors.placed (founded_ends_in_name mirrors.founded)
    (mirrors.present digest inside).root, children_card mirrors]

/-- Clearing counts the touched digests, and what it leaves mirrors the empty map. -/
theorem mirrors_clear {count : Nat} (mirrors : Mirrors cache place contents w)
    (done : cache.clear w = .ok count after) :
    count = contents.touched.card ∧ Mirrors cache place Contents.empty after := by
  rcases contents.touched.eq_empty_or_nonempty with none | touched
  · obtain rfl := Contents.eq_empty none
    obtain ⟨absent, -⟩ := bare_of_empty mirrors
    obtain ⟨rfl, rfl⟩ :=
      clear_absent (nothing_found mirrors.founded (absent place List.prefix_rfl)) done
    exact ⟨rfl, mirrors⟩
  · rw [clear_touched mirrors touched] at done
    obtain ⟨rfl, rfl⟩ := EStateM.Result.ok.inj done
    have links := links_of_removes mirrors.placed (prune_removes place w.files)
    have founded := founded_of_same_links { w with files := w.files.prune place } mirrors.founded
      links rfl
    have nothing : ∀ location, place <+: location →
        (w.files.prune place).get? location = Option.none := by
      intro location within
      obtain ⟨front, base, name, outer, -, -, -, -, rfl⟩ := founded.named
      have inner : location ≠ [] := by
        rintro rfl
        simp at within
      rw [get_prune, if_pos ⟨inner, within⟩]
    exact ⟨rfl, mirrors_of_missing ⟨founded, nothing⟩⟩

/-- A step of the cache is a step of the map that it mirrors, with the same answer. -/
theorem perform_mirrors {operation : Operation} (mirrors : Mirrors cache place contents w)
    (fits : operation.Fits) (performed : operation.perform? cache w = some (answer, after)) :
    answer = contents.answer operation ∧ Mirrors cache place (contents.next operation) after := by
  have found := fun digest => found_of_holds mirrors.placed (mirrors.entries digest)
  have of_answered : ∀ {ε α : Type} {result : EStateM.Result ε Workspace α} {form : α → Answer},
      answered form result = some (answer, after) →
        ∃ value, result = .ok value after ∧ answer = form value := by
    intro ε α result form same
    cases result with
    | ok value last =>
      obtain ⟨rfl, rfl⟩ := Prod.mk.inj (Option.some.inj same)
      exact ⟨value, rfl, rfl⟩
    | error => cases same
  cases operation with
  | put digest entry =>
    obtain ⟨⟨⟩, done, rfl⟩ := of_answered performed
    exact ⟨rfl, mirrors_put mirrors fits done⟩
  | materialize digest request =>
    obtain ⟨⟨⟩, done, rfl⟩ := of_answered performed
    exact ⟨rfl, mirrors_materialize mirrors fits done⟩
  | get digest =>
    obtain ⟨rfl, rfl⟩ := Prod.mk.inj (Option.some.inj performed)
    exact ⟨congrArg Answer.response (found digest).2.1, mirrors⟩
  | getEntry digest =>
    obtain ⟨rfl, rfl⟩ := Prod.mk.inj (Option.some.inj performed)
    exact ⟨congrArg Answer.entry (found digest).1, mirrors⟩
  | contains digest =>
    obtain ⟨rfl, rfl⟩ := Prod.mk.inj (Option.some.inj performed)
    exact ⟨congrArg Answer.held (found digest).2.2, mirrors⟩
  | clear =>
    obtain ⟨count, done, rfl⟩ := of_answered performed
    obtain ⟨counted, cleared⟩ := mirrors_clear mirrors done
    exact ⟨congrArg Answer.count counted, cleared⟩

theorem run_cons {operation : Operation} {operations : List Operation} {answers : List Answer}
    {middle : Workspace} (performed : operation.perform? cache w = some (answer, middle))
    (ran : run? cache middle operations = some (answers, after)) :
    run? cache w (operation :: operations) = some (answer :: answers, after) := by
  rw [run?, performed, Option.bind_eq_bind, Option.bind_some]
  dsimp only
  rw [ran]
  rfl

/-- A run of the cache is a run of the map. -/
theorem run_mirrors {operations : List Operation} {answers : List Answer}
    (mirrors : Mirrors cache place contents w) (fits : ∀ operation ∈ operations, operation.Fits)
    (ran : run? cache w operations = some (answers, after)) :
    answers = contents.answers operations ∧
      Mirrors cache place (operations.foldl Contents.next contents) after := by
  induction operations generalizing contents w answers with
  | nil =>
    obtain ⟨rfl, rfl⟩ := Prod.mk.inj (Option.some.inj ran)
    exact ⟨rfl, mirrors⟩
  | cons operation operations ih =>
    obtain ⟨⟨answer, middle⟩, performed, ran⟩ := Option.bind_eq_some_iff.mp ran
    obtain ⟨⟨rest, last⟩, ran', ended⟩ := Option.bind_eq_some_iff.mp ran
    obtain ⟨rfl, rfl⟩ := Prod.mk.inj (Option.some.inj ended)
    obtain ⟨rfl, mirrors⟩ := perform_mirrors mirrors (fits operation (by simp)) performed
    obtain ⟨rfl, mirrors⟩ :=
      ih mirrors (fun other inside => fits other (List.mem_cons_of_mem _ inside)) ran'
    exact ⟨rfl, mirrors⟩

/-- Operations on a cache whose root is missing at first, all of whose work on files succeeds, answer
what a finite map answers. (The path of the root ends in a name of its own and does not go through the
inside of the place it leads to, the names of sources are plain, and entries fit their artifacts.)
After them, what is found for a digest is the entry that was put for it last, or nothing if there was
no put for it since the cache was cleared; an operation for one digest changes nothing that is found
for another; and clearing the cache then counts the digests with an entry or sources, which succeeds if
there are any, and leaves nothing to be found for any digest and nothing in the place of the cache. -/
theorem cache_is_finite_map {operations : List Operation} {answers : List Answer}
    (missing : Missing cache place w) (fits : ∀ operation ∈ operations, operation.Fits)
    (ran : run? cache w operations = some (answers, after)) :
    answers = Contents.empty.answers operations ∧
      (∀ digest, cache.getEntry? after digest = (Contents.afterAll operations).found? digest ∧
        cache.get? after digest = (cache.getEntry? after digest).map CacheEntry.value ∧
        cache.contains after digest = (cache.getEntry? after digest).isSome) ∧
      (∀ (operation : Operation) answer next digest other, operation.Fits →
        operation.perform? cache after = some (answer, next) →
        operation.digest? = some digest → other ≠ digest →
        cache.getEntry? next other = cache.getEntry? after other ∧
          cache.get? next other = cache.get? after other ∧
          cache.contains next other = cache.contains after other) ∧
      ((Contents.afterAll operations).touched.Nonempty →
        ∃ count next, cache.clear after = .ok count next) ∧
      ∀ count next, cache.clear after = .ok count next →
        count = (Contents.afterAll operations).touched.card ∧
        (∀ digest, cache.getEntry? next digest = none ∧ cache.get? next digest = none ∧
          cache.contains next digest = false ∧
          next.isDirectory (cache.sources digest) = false) ∧
        ∀ location, place <+: location → next.files.get? location = none := by
  obtain ⟨same, mirrors⟩ := run_mirrors (mirrors_of_missing missing) fits ran
  have found := fun digest => found_of_holds mirrors.placed (mirrors.entries digest)
  refine ⟨same, fun digest => ?_, ?_, fun touched => ⟨_, _, clear_touched mirrors touched⟩, ?_⟩
  · obtain ⟨entry, response, held⟩ := found digest
    rw [entry]
    exact ⟨rfl, response, held⟩
  · intro operation answer next digest other fits performed own different
    obtain ⟨-, mirrors'⟩ := perform_mirrors mirrors fits performed
    have later := found_of_holds mirrors'.placed (mirrors'.entries other)
    rw [Contents.entry_next own different] at later
    obtain ⟨entry, response, held⟩ := found other
    rw [entry, response, held]
    exact later
  · intro count next done
    obtain ⟨counted, cleared⟩ := mirrors_clear mirrors done
    obtain ⟨absent, without⟩ := bare_of_empty cleared
    refine ⟨counted, fun digest => ?_, absent⟩
    obtain ⟨entry, response, held⟩ := found_of_holds cleared.placed (cleared.entries digest)
    exact ⟨entry, response, held, without digest⟩

end Steps

section Examples

/-- The workspace of two names before there is a directory for the cache. -/
def unmade : Workspace := { twoNames with files := twoNames.files.erase ["c"] }

theorem unmade_missing : Missing smallCache ["c"] unmade := by
  have root : smallCache.root = pathBelow ⟨""⟩ ["c"] := by decide
  have plain : ∀ other ∈ ["c"], Plain other := by
    simpa using (by decide : Plain "c")
  have solid : Solid unmade.files unmade.here := solid_top
  have reached : walk unmade.files true maxLinks (origin unmade ⟨""⟩) .directory (steps ⟨""⟩) =
      .ok (.taken [] .directory) := by
    rw [show steps ⟨""⟩ = [] by decide, walk]
    rfl
  refine missing_of_directory root plain solid reached fun location within => ?_
  rw [unmade, get?_erase _ _ _ (by simp)]
  split
  · rfl
  · rename_i inner
    exact two_names_bare location within inner

private theorem unmade_root : unmade.files.makeDirectories [] smallCache.root =
    (.ok (), twoNames.files) := by
  have found : unmade.files.find false [] ⟨"c"⟩ = .ok (.free ["c"] false) := by
    rw [find_accepted (by decide), ite_self, show (Path.mk "c").pieces = ["c"] by decide,
      walk_absent c_name (unmade_missing.absent _ List.prefix_rfl)]
    rfl
  rw [show smallCache.root = ⟨"c"⟩ from rfl, makeDirectories, if_neg (by decide), makeDirectory, found]
  rfl

private theorem unmade_early {path : Path} {rest : List String} (accepted : Accepted path)
    (pieces : path.pieces = "c" :: rest) (on : GoesOn rest) :
    unmade.files.makeDirectory [] path = .error .notFound := by
  rw [makeDirectory, find_past_absent c_name (unmade_missing.absent _ List.prefix_rfl) accepted pieces
    on false]

/-- Making the directory of a digest, or the one for its sources, makes the root of the cache first. -/
private theorem unmade_makes (digest : Digest) :
    unmade.files.makeDirectories [] (smallCache.directory digest) =
        twoNames.files.makeDirectories [] (smallCache.directory digest) ∧
      unmade.files.makeDirectories [] (smallCache.sources digest) =
        twoNames.files.makeDirectories [] (smallCache.sources digest) := by
  have pieces : (smallCache.directory digest).pieces = ["c", digest.toHex] :=
    (directory_pieces smallCache digest).1
  have above : (smallCache.directory digest).parent? = some smallCache.root :=
    parent_of_join (to_hex_plain digest) (show smallCache.root.pieces = "c" :: [] by decide)
      (by decide) (by decide) (by decide)
  have free : twoNames.files.get? (["c"] ++ [digest.toHex]) = none :=
    two_names_new digest _ List.prefix_rfl
  have own := @makes_in_made_root _ ["c"] digest unmade twoNames.files small_roomy
    (unmade_early (directory_accepted small_roomy digest).1 pieces
      ⟨_, by simp, plain_visible (to_hex_plain digest)⟩) above unmade_root two_names_rooted free
  have pieces' : (smallCache.sources digest).pieces = ["c", digest.toHex, Cache.sourcesName] :=
    (file_pieces smallCache digest sources_plain).1
  exact ⟨own, @makes_sources_in_made_root _ ["c"] digest unmade twoNames.files small_roomy
    (unmade_early (file_accepted small_roomy digest sources_fit) pieces'
      ⟨_, by simp, plain_visible sources_plain⟩) (small_sources_above digest) own two_names_rooted free⟩

/-- So a put is then the put into the cache that is there, and writing sources as well. -/
private theorem unmade_put (digest : Digest) (response : Response) (version : String) :
    smallCache.put digest response version unmade =
      smallCache.put digest response version twoNames :=
  put_in_made_root (unmade_makes digest).1 _ _

private theorem unmade_materialize (digest : Digest) (request : Request) :
    InstalledCompiler.materialize request (smallCache.sources digest) unmade =
      InstalledCompiler.materialize request (smallCache.sources digest) twoNames :=
  materialize_in_made_root (unmade_makes digest).2

/-- The digest of one byte all over. -/
def digestOf (byte : UInt8) : Digest := ⟨List.replicate 32 byte, List.length_replicate⟩

/-- The operations of the example: two entries are put, and the sources of a request are written for a
third digest. -/
def threeDigests : List Operation :=
  [.put (digestOf 1) ⟨noObjects, "0.4.6"⟩, .put (digestOf 2) ⟨oneObject, "0.5.0"⟩,
    .materialize (digestOf 3) rightRequest, .getEntry (digestOf 1), .getEntry (digestOf 2),
    .contains (digestOf 3), .clear]

/-- Two entries are put into a missing cache and each is found; the digest that only has sources has
none, and clearing the cache counts it with the others. -/
theorem three_digests_cleared :
    ∃ after, run? smallCache unmade threeDigests =
        some ([.done, .done, .done, .entry (some ⟨noObjects, "0.4.6"⟩),
          .entry (some ⟨oneObject, "0.5.0"⟩), .held false, .count 3], after) ∧
      smallCache.getEntry? after (digestOf 1) = none := by
  have fits : EntryFits ⟨noObjects, "0.4.6"⟩ := ⟨no_objects_fits.2, no_objects_fits.1⟩
  have fits' : EntryFits ⟨oneObject, "0.5.0"⟩ := ⟨by decide +kernel, by decide +kernel⟩
  have plain : PlainFiles rightRequest := fun entry listed => (made_keys both_made.2 entry listed).1
  obtain ⟨first, put, stocked⟩ := stocked_put two_names_stocked small_roomy
    (List.not_mem_nil (a := digestOf 1)) (by decide) noObjects "0.4.6"
  rw [← unmade_put] at put
  obtain ⟨second, put', stocked⟩ := stocked_put stocked small_roomy
    (show digestOf 2 ∉ [digestOf 1] by decide) (by decide) oneObject "0.5.0"
  obtain ⟨third, done, -⟩ := stocked_materialize stocked small_roomy
    (small_sources_above (digestOf 3)) (show digestOf 3 ∉ [digestOf 2, digestOf 1] by decide)
    (made_short both_made.2) (by decide +kernel)
  have mirrors := mirrors_materialize
    (mirrors_put (mirrors_put (mirrors_of_missing unmade_missing) fits put) fits' put') plain done
  have cleared := clear_touched mirrors ⟨_, Finset.mem_insert_self ..⟩
  have ran : run? smallCache unmade threeDigests = some ([_, _, _, _, _, _, _], _) :=
    run_cons (congrArg (answered _) put) (run_cons (congrArg (answered _) put')
      (run_cons (congrArg (answered _) done) (run_cons rfl (run_cons rfl (run_cons rfl
        (run_cons (congrArg (answered Answer.count) cleared) rfl))))))
  have all : ∀ operation ∈ threeDigests, operation.Fits := by
    simp [threeDigests, Operation.Fits, fits, fits', plain]
  obtain ⟨same, found, -⟩ := cache_is_finite_map unmade_missing all ran
  have expected : Contents.empty.answers threeDigests =
      [.done, .done, .done, .entry (some ⟨noObjects, "0.4.6"⟩),
        .entry (some ⟨oneObject, "0.5.0"⟩), .held false, .count 3] := by
    decide +kernel
  rw [same.trans expected] at ran
  exact ⟨_, ran, (found (digestOf 1)).1⟩

/-- Clearing a cache does not answer one if there are two names in its place. -/
private theorem clear_counts_more {cache : Cache} {place : Location} {w : Workspace}
    {name name' : String} (placed : Placed cache place w) (named : endsInStep cache.root = false)
    (root : w.files.lookup w.here cache.root = .ok (place, .directory))
    (there : w.files.get? (place ++ [name]) ≠ none) (there' : w.files.get? (place ++ [name']) ≠ none)
    (different : name ≠ name') : ∃ count after, cache.clear w = .ok count after ∧ count ≠ 1 := by
  refine ⟨_, _, clear_present placed named root, fun one => ?_⟩
  obtain ⟨only, whole⟩ := List.length_eq_one_iff.mp one
  have all : ∀ name, w.files.get? (place ++ [name]) ≠ none → name = only := by
    intro name there
    simpa [whole] using (mem_children_iff w.files place name).mpr there
  exact different ((all name there).trans (all name' there').symm)

/-- If the root leads through the inside of its place, what is made for it there is counted. -/
private theorem circuit_counted (digest : Digest) :
    ∃ count after, run? circuitCache bare [.put digest ⟨noObjects, "0.4.6"⟩, .clear] =
      some ([.done, .count count], after) ∧ count ≠ 1 := by
  have roomy : Roomy circuitCache.root := by decide
  have pieces : circuitCache.root.pieces = ["c", "x", "..", "..", "c"] := by decide
  have own : (circuitCache.directory digest).pieces = ["c", "x", "..", "..", "c", digest.toHex] :=
    (directory_pieces circuitCache digest).1
  have above : (circuitCache.directory digest).parent? = some circuitCache.root :=
    parent_of_join (to_hex_plain digest) pieces (by decide) (by decide) (by decide)
  have early : bare.files.makeDirectory [] (circuitCache.directory digest) = .error .notFound := by
    rw [makeDirectory, find_past_absent c_name rfl (directory_accepted roomy digest).1 own
      ⟨"x", by simp, by decide⟩ false]
  have different : "x" ≠ digest.toHex := by
    intro same
    have size := (to_hex_bytes digest).1
    rw [← same] at size
    exact absurd size (by decide)
  have new : ∀ location, ["c"] ++ [digest.toHex] <+: location → circuit.get? location = none := by
    rintro _ ⟨rest, rfl⟩
    rw [get_circuit (by simp), if_neg (by simp [different.symm])]
  have same := @makes_in_made_root _ ["c"] digest bare circuit roomy early above circuit_made
    circuit_rooted (new _ List.prefix_rfl)
  obtain ⟨filled, put, holds⟩ := @put_succeeds _ _ { bare with files := circuit } digest noObjects
    "0.4.6" circuit_rooted roomy new first_name_fit
  have placed := (put_effect circuit_placed put).1
  have put : circuitCache.put digest noObjects "0.4.6" bare = .ok () filled :=
    (put_in_made_root same _ _).trans put
  have rooted := rooted_of_filled circuit_rooted new holds
  have root : filled.files.lookup filled.here circuitCache.root = .ok (["c"], .directory) := by
    refine lookup_ok_iff.mpr ⟨by decide, ?_⟩
    exact rooted
  have inner : filled.files.get? (["c"] ++ ["x"]) ≠ none := by
    rw [holds.elsewhere _ (by simp [different.symm]), get_circuit (by simp), if_pos (by simp)]
    simp
  obtain ⟨count, after, cleared, more⟩ := clear_counts_more placed (by decide) root inner
    (by rw [holds.directory]; simp) different
  exact ⟨count, after, run_cons (congrArg (answered _) put)
    (run_cons (congrArg (answered Answer.count) cleared) rfl), more⟩

/-- If the name of a source leads into the root, the source is counted. -/
private theorem climbing_counted (digest : Digest) :
    ∃ count after, run? smallCache unmade [.materialize digest (oneSource climbing ""), .clear] =
      some ([.done, .count count], after) ∧ count ≠ 1 := by
  obtain ⟨written, done, here, held⟩ := climbing_materialized digest ""
  rw [← unmade_materialize] at done
  have links : SameLinks twoNames.files written.files := by
    intro location target
    rw [held]
    split
    · rename_i own
      rw [own, two_names_bare _ (by simp) (by simp)]
      simp
    · split
      · rename_i own
        rw [own, two_names_bare _ (by simp) (by simp)]
        simp
      · split
        · rename_i own
          rw [own, two_names_bare _ (by simp) (by simp)]
          simp
        · exact Iff.rfl
  have placed := placed_of_same_links written two_names_placed links here
  have root : written.files.lookup written.here smallCache.root = .ok (["c"], .directory) := by
    have there : written.files.get? ([] ++ ["c"]) = some .directory := by
      rw [held, if_neg (by simp), if_neg (by simp), if_neg (by simp)]
      rfl
    refine lookup_ok_iff.mpr ⟨by decide, ?_⟩
    rw [here, ite_self, show smallCache.root.pieces = ["c"] by decide,
      walk_found c_name there (by simp), walk]
    rfl
  obtain ⟨count, after, cleared, more⟩ := clear_counts_more placed (by decide) root
    (show written.files.get? (["c"] ++ ["x.sol"]) ≠ none by
      rw [held, if_pos (by simp)]
      simp)
    (show written.files.get? (["c"] ++ [digest.toHex]) ≠ none by
      rw [held, if_neg (by simpa using hex_not_climbing digest), if_neg (by simp), if_pos (by simp)]
      simp) (hex_not_climbing digest).symm
  exact ⟨count, after, run_cons (congrArg (answered _) done)
    (run_cons (congrArg (answered Answer.count) cleared) rfl), more⟩

/-- Where the conditions do not hold, the cache is no such map. If its root leads through the inside of
its place, or the name of a source leads into the root, what is made there is counted as well; a root
that ends in a step to itself cannot be cleared; and an entry with too long a version is not found. -/
theorem map_lost_elsewhere :
    (∃ count after, run? circuitCache bare
        [.put emptyRequest.digest ⟨noObjects, "0.4.6"⟩, .clear] =
          some ([.done, .count count], after) ∧ count ≠ 1) ∧
    (∃ count after, run? smallCache unmade
        [.materialize emptyRequest.digest (oneSource climbing ""), .clear] =
          some ([.done, .count count], after) ∧ count ≠ 1) ∧
    (∃ left, Cache.clear ⟨⟨"c/."⟩⟩ twoNames = .error ⟨⟨"c/."⟩, .invalid⟩ left) ∧
    ∃ version after, run? smallCache unmade
        [.put emptyRequest.digest ⟨noObjects, version⟩, .getEntry emptyRequest.digest] =
          some ([.done, .entry none], after) := by
  generalize emptyRequest.digest = digest
  refine ⟨circuit_counted digest, climbing_counted digest, ?_, ?_⟩
  · have accepted : Accepted ⟨"c/."⟩ := by decide
    have found : ∀ follow tree, tree.get? ([] ++ ["c"]) = some .directory →
        find tree follow [] ⟨"c/."⟩ = .ok (.taken ["c"] .directory) := by
      intro follow tree there
      rw [find_accepted accepted, ite_self, show (Path.mk "c/.").pieces = ["c", "."] by decide,
        walk_found c_name there (by simp), walk_idle (by decide), walk]
      rfl
    have listed : twoNames.files.listDirectory [] ⟨"c/."⟩ = .ok (twoNames.files.children ["c"]) := by
      simp only [listDirectory, lookup, found true twoNames.files rfl]
    have kept : (twoNames.files.hollow ["c"]).get? ([] ++ ["c"]) = some .directory := by
      rw [get?_hollow]
      rfl
    have ending : endsInSlash ⟨"c/."⟩ = false ∧ ending? ⟨"c/."⟩ = some "." := by decide
    refine ⟨{ twoNames with files := twoNames.files.hollow ["c"] }, ?_⟩
    simp only [Cache.clear, show twoNames.here = [] from rfl, listed, removeTree, removalError?,
      ending.1, ending.2, found false twoNames.files rfl, found false _ kept]
  · obtain ⟨after, put, -⟩ := stocked_put two_names_stocked small_roomy
      (List.not_mem_nil (a := digest)) (by decide) noObjects
      (String.ofList (List.replicate (Bytes.capacity 4) 'a'))
    rw [← unmade_put] at put
    have long := mt decode_some_iff.mp
      (long_version_unfit (Nat.le_refl (Bytes.capacity 4)) (Codec.response noObjects))
    have read := MovedFiles.read_kept put
    rw [Option.not_isSome_iff_eq_none.mp long, ite_self] at read
    refine ⟨_, after, run_cons (congrArg (answered _) put) (run_cons ?_ rfl)⟩
    simp only [Operation.perform?, Cache.getEntry?, read]
    rfl

end Examples

end ContractBuild.CacheMap
