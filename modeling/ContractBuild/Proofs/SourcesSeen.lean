import ContractBuild.Proofs.CacheGrowth
import ContractBuild.Proofs.CompileSteps
import ContractBuild.Proofs.RequestIdentity
import ContractBuild.Proofs.ShownNames

/-! What a compiler finds in the directory that it is run in. A file there is named by the content that
it was made from, not by the script that it holds, and is never written again; so whether it is right
depends on all that has happened before. Every file in the directory of a digest was written as a whole
for the one request with this digest, so it holds the script of that request. -/
namespace ContractBuild.SourcesSeen
open ByteForms CacheChange CacheGrowth CachePlace CacheRoom CompileSteps FileTree PathPieces PathRoute
open PathWalk RequestIdentity Resolution ShownNames Source SourcesSpared SourcesWritten WriterSteps
open WrittenFiles

section Requests

/-- A request that is made for an entry file of some project. -/
def Made (request : Request) : Prop :=
  ∃ w roots entry options names, prepare w roots entry options = .ok ⟨request, names⟩

/-- The name of a content is not the name of a temporary file. -/
theorem file_name_lasting (digest : Digest) (language : Language) :
    Lasting (digest.fileName language) := by
  intro name process number same
  have first := congrArg (fun text => text.toList.head?) same
  have visible : digest.toHex.toList ≠ [] := by
    simpa [String.toList_eq_nil_iff] using plain_visible (to_hex_plain digest)
  obtain ⟨c, rest, shape⟩ := List.exists_cons_of_ne_nil visible
  have dotted : (hiddenName name process number).toList.head? = some '.' := by
    simp [hiddenName, toString]
  simp only [dotted, Digest.fileName, String.toList_append, shape, List.cons_append,
    List.head?_cons, Option.some.injEq] at first
  subst first
  exact to_hex_undotted digest (by simp [shape])

/-- The name of a content leaves room for its temporary names. -/
theorem file_name_short (digest : Digest) (language : Language) :
    Short (digest.fileName language) := by
  have plain := file_name_plain digest language
  have last : Text.byteLength language.extension.toList = 3 ∧
      '\x00' ∉ language.extension.toList := by cases language; decide
  have dot : Text.byteLength ".".toList = 1 ∧ '\x00' ∉ ".".toList := by decide
  have size : Text.byteLength (digest.fileName language).toList = 68 := by
    simp only [Digest.fileName, String.toList_append, byte_length_append, (to_hex_bytes digest).1,
      last.1, dot.1]
  have whole : '\x00' ∉ (digest.fileName language).toList := by
    simp only [Digest.fileName, String.toList_append, List.mem_append, not_or]
    exact ⟨⟨(to_hex_bytes digest).2, dot.2⟩, last.2⟩
  exact ⟨⟨plain, ⟨plain.busy, plain.inner, by rw [size]; decide⟩, whole⟩,
    file_name_lasting digest language, by rw [size]; decide⟩

/-- The name of the entry file is in the bundle that it resolves to. -/
theorem entry_bundled {search : Search} {path : Path} {bundle : Bundle}
    (resolved : resolve search path = .ok bundle) :
    ∃ file, bundle.includes.get? bundle.entry = some file := by
  rw [resolve_eq] at resolved
  split at resolved
  · cases resolved
  · rename_i key walk grown visited
    obtain rfl := Except.ok.inj resolved
    obtain ⟨location, content, executable, looked⟩ := entry_is_file visited
    have new : Walk.start.keyOf? location = none := rfl
    cases decoded : Text.ofUtf8? content with
    | none =>
      rw [visit_undecodable looked new decoded] at visited
      cases visited
    | some text =>
      rw [visit_file looked new decoded rfl] at visited
      split at visited
      · cases visited
      · dsimp only at visited
        split at visited
        · rename_i present held
          split at visited
          · obtain ⟨rfl, rfl⟩ := Onward.mk.inj (Except.ok.inj visited)
            exact ⟨present, held⟩
          · cases visited
        · obtain ⟨rfl, rfl⟩ := Onward.mk.inj (Except.ok.inj visited)
          exact ⟨_, (get_insert ..).trans (if_pos rfl)⟩

variable {request : Request}

theorem made_short (made : Made request) : ∀ listed ∈ request.includes.entries, Short listed.1 := by
  obtain ⟨w, roots, entry, options, names, made⟩ := made
  intro listed inside
  obtain ⟨digest, language, named⟩ := prepared_keys made listed inside
  rw [named]
  exact file_name_short digest language

theorem made_keys (made : Made request) :
    ∀ listed ∈ request.includes.entries, Plain listed.1 ∧ Lasting listed.1 :=
  fun listed inside =>
    ⟨(made_short made listed inside).fit.plain, (made_short made listed inside).lasting⟩

/-- The entry of a request is one of its files. -/
theorem made_entry (made : Made request) :
    ∃ file, (request.entry, file) ∈ request.includes.entries := by
  obtain ⟨w, roots, entry, options, names, made⟩ := made
  unfold prepare at made
  split at made
  · cases made
  · rename_i language _
    split at made
    · cases made
    · rename_i bundle resolved
      obtain ⟨rfl, -⟩ := Prepared.mk.inj (Except.ok.inj made)
      simp only [← get_eq_some_iff]
      exact entry_bundled resolved

end Requests

section Directory
variable {cache : Cache} {place : Location} {digest : Digest} {w after : Workspace} {key : String}
  {files : List (String × IncludedFile)}

/-- The path of a source. -/
def sourcePath (cache : Cache) (digest : Digest) (key : String) : Path :=
  (cache.sources digest).join ⟨key⟩

private theorem source_names_plain (digest : Digest) (plain : Plain key) :
    ∀ name ∈ [digest.toHex, Cache.sourcesName, key], Plain name := by
  simpa using ⟨to_hex_plain digest, sources_plain, plain⟩

/-- What is read as a source is in its location. -/
theorem source_in_place (placed : Placed cache place w) (plain : Plain key) {content : Bytes}
    (read : w.read (sourcePath cache digest key) = .ok content) :
    contentAt? w.files (sourcePlace place digest key) = some content := by
  obtain ⟨executable, looked⟩ :=
    read_below placed (by simp) (source_names_plain digest plain) read
  exact content_of_file (get?_of_lookup looked)

/-- A source that can be read can still be read when sources have been written. -/
theorem read_kept {other : Digest} (placed : Placed cache place w) (plain : Plain key)
    (lasting : Lasting key) (named : ∀ entry ∈ files, Plain entry.1)
    (writing : Writing (cache.sources other) files w after)
    (read : ∃ content, w.read (sourcePath cache digest key) = .ok content) :
    ∃ content, after.read (sourcePath cache digest key) = .ok content := by
  obtain ⟨content, read⟩ := read
  obtain ⟨confined, held⟩ := writing_effect placed named writing
  have there := source_in_place placed plain read
  have later : ∃ content, contentAt? after.files (sourcePlace place digest key) = some content := by
    by_cases own : other = digest
    · subst own
      rcases held key lasting with same | ⟨file, -, whole⟩
      · exact ⟨content, same.trans there⟩
      · exact ⟨_, whole⟩
    · refine ⟨content, (confined.elsewhere _ ?_).trans there⟩
      rintro ⟨name, location⟩
      exact own (source_place_injective location).1.symm
  obtain ⟨content', later⟩ := later
  exact ⟨content', read_later placed confined (by simp) (source_names_plain digest plain) read later⟩

/-- Writing sources that succeeds leaves all of them to be read. -/
theorem sources_present (placed : Placed cache place w)
    (named : ∀ entry ∈ files, Plain entry.1 ∧ Lasting entry.1)
    (done : InstalledCompiler.writeSources (cache.sources digest) files w = .ok () after) :
    ∀ entry ∈ files, ∃ content, after.read (sourcePath cache digest entry.1) = .ok content := by
  induction files generalizing w with
  | nil => simp
  | cons entry files ih =>
    obtain ⟨key, file⟩ := entry
    have named' : ∀ entry ∈ files, Plain entry.1 ∧ Lasting entry.1 :=
      fun other inside => named other (List.mem_cons_of_mem _ inside)
    obtain ⟨plain, lasting⟩ := named (key, file) (by simp)
    -- Once the first one is there, the others are written and do not take it away.
    have rest : ∀ {middle}, Placed cache place middle →
        (∃ content, middle.read (sourcePath cache digest key) = .ok content) →
        InstalledCompiler.writeSources (cache.sources digest) files middle = .ok () after →
        ∀ entry ∈ (key, file) :: files, ∃ content,
          after.read (sourcePath cache digest entry.1) = .ok content := by
      intro middle placed first done entry inside
      rcases List.mem_cons.mp inside with rfl | inside
      · have writing := writing_of_sources (cache.sources digest) files middle
        rw [done] at writing
        exact read_kept placed plain lasting (fun entry inside => (named' entry inside).1) writing
          first
      · exact ih placed named' done entry inside
    rw [write_sources_cons] at done
    split at done
    · rename_i there
      exact rest placed ((is_file_iff w _).mp there) done
    · obtain ⟨written, middle, whole, done⟩ := ok_of_bind done
      have unlinked := unlinked_below placed (by simp) (source_names_plain digest plain)
      obtain ⟨-, -, read⟩ := write_whole_found unlinked whole
      have writing : Writing (cache.sources digest) [(key, file)] w middle :=
        .write (progress_of_write_whole whole) .stop
      have confined := (writing_effect placed (by simpa using plain) writing).1
      exact rest (placed_of_confined placed confined) ⟨_, read⟩ done

/-- So does materializing a request. -/
theorem materialized_present {request : Request} (placed : Placed cache place w)
    (named : ∀ entry ∈ request.includes.entries, Plain entry.1 ∧ Lasting entry.1)
    (done : InstalledCompiler.materialize request (cache.sources digest) w = .ok () after) :
    ∀ entry ∈ request.includes.entries, ∃ content,
      after.read (sourcePath cache digest entry.1) = .ok content := by
  obtain ⟨⟨⟩, made, making, wrote⟩ := ok_of_bind done
  have started := starting_effect
    (progress_of_make_directories ⟨cache.sources digest, "", []⟩ making)
  exact sources_present (placed_of_confined placed started) named wrote

end Directory

section History
variable {cache : Cache} {place : Location} {met : Set Request} {w middle after : Workspace}
  {request : Request} {compiler : InstalledCompiler}

/-- A change brings no source into the place of a cache and rewrites none. -/
structure SparesSources (cache : Cache) (place : Location) (w after : Workspace) : Prop where
  placed : Placed cache place after
  sources : ∀ digest key content,
    contentAt? after.files (sourcePlace place digest key) = some content →
      contentAt? w.files (sourcePlace place digest key) = some content

theorem spares_sources_refl (placed : Placed cache place w) : SparesSources cache place w w :=
  ⟨placed, fun _ _ _ there => there⟩

/-- A change that is confined to locations of no sources spares them. -/
theorem spares_of_confined {changed : Location → Prop} (placed : Placed cache place w)
    (confined : Confined changed w after)
    (apart : ∀ digest key, ¬ changed (sourcePlace place digest key)) :
    SparesSources cache place w after where
  placed := placed_of_confined placed confined
  sources digest key _ there := (confined.elsewhere _ (apart digest key)).symm.trans there

/-- A writer of a result spares the sources, wherever it stops. -/
theorem progress_spares {digest : Digest} {content : Bytes} {stage : Stage}
    (placed : Placed cache place w)
    (part : Progress ⟨cache.directory digest, Cache.resultName, content⟩ (w, .starting)
      (after, stage)) : SparesSources cache place w after := by
  have inside : Inside cache [digest.toHex] ⟨cache.directory digest, Cache.resultName, content⟩ :=
    ⟨rfl, directory_plain digest, result_plain⟩
  apply spares_of_confined placed (progress_effect placed inside part).1
  rintro other key (⟨number, same⟩ | ⟨-, same⟩) <;>
  · have lengths := congrArg List.length same
    simp [sourcePlace, hiddenPlace, filePlace] at lengths

theorem put_spares {response : Response} {version : String} {digest : Digest}
    (placed : Placed cache place w) :
    SparesSources cache place w (leftBy (cache.put digest response version w)) := by
  cases done : cache.put digest response version w with
  | ok answer after =>
    obtain ⟨written, artifact⟩ := artifact_of_put done
    exact progress_spares placed (progress_of_write_artifact artifact)
  | error cause after =>
    rcases error_of_bind done with failed | ⟨path, written, -, ended⟩
    · obtain ⟨stage, -, part⟩ := progress_of_failed_artifact failed
      exact progress_spares placed part
    · cases ended

theorem clear_spares_sources (placed : Placed cache place w) :
    SparesSources cache place w (leftBy (cache.clear w)) := by
  obtain ⟨files, removes, left⟩ := clear_removes placed
  have spares : SparesSources cache place w { w with files } :=
    ⟨placed_of_same_links _ placed (links_of_removes placed removes) rfl,
      fun _ _ _ there => content_of_removes removes there⟩
  rcases left with ⟨count, done⟩ | ⟨cause, done⟩
  · rw [done]
    exact spares
  · rw [done]
    exact spares

/-- A program spares the sources, whatever it is called with. -/
def Mild (cache : Cache) (place : Location) (run : ProgramRunner) : Prop :=
  ∀ call w, Placed cache place w → SparesSources cache place w (run call w).2

/-- What may happen to the files of a cache: requests are sent to installed compilers, results are put
into the cache, and it is cleared. Each may fail, and work on files may stop at any step; and anything
else may happen that spares the sources, like a clearing that removes only some of the files. -/
inductive Happens (cache : Cache) (place : Location) (met : Set Request) :
    Workspace → Workspace → Prop where
  | send {compiler : InstalledCompiler} {request : Request} (inside : request ∈ met)
      (own : compiler.cache = cache) (mild : Mild cache place compiler.run) (w : Workspace) :
      Happens cache place met w (leftBy (compiler.send request w))
  | cutSend {request : Request} {w after : Workspace} (inside : request ∈ met)
      (part : Writing (cache.sources request.digest) request.includes.entries w after) :
      Happens cache place met w after
  | put (digest : Digest) (response : Response) (version : String) (w : Workspace) :
      Happens cache place met w (leftBy (cache.put digest response version w))
  | cutPut {digest : Digest} {content : Bytes} {stage : Stage} {w after : Workspace}
      (part : Progress ⟨cache.directory digest, Cache.resultName, content⟩ (w, .starting)
        (after, stage)) : Happens cache place met w after
  | clear (w : Workspace) : Happens cache place met w (leftBy (cache.clear w))
  | otherwise {w after : Workspace} (spares : SparesSources cache place w after) :
      Happens cache place met w after

/-- Every source in the directory of a request is the script that the request has under the name. -/
structure Owned (cache : Cache) (place : Location) (met : Set Request) (w : Workspace) : Prop where
  placed : Placed cache place w
  own : ∀ request ∈ met, ∀ entry ∈ request.includes.entries, ∀ content,
    contentAt? w.files (sourcePlace place request.digest entry.1) = some content →
      content = Text.utf8 entry.2.script.toList

theorem owned_of_spares (owned : Owned cache place met w)
    (spares : SparesSources cache place w after) : Owned cache place met after where
  placed := spares.placed
  own request inside entry listed content there :=
    owned.own request inside entry listed content (spares.sources _ _ _ there)

/-- Writing the sources of a request keeps the directories in order: its own gets its own scripts, and
those of all other requests are other directories. -/
theorem owned_of_writing (built : ∀ request ∈ met, Made request)
    (told : Set.InjOn Request.digest met) (owned : Owned cache place met w)
    (inside : request ∈ met)
    (writing : Writing (cache.sources request.digest) request.includes.entries w after) :
    Owned cache place met after := by
  have keys := made_keys (built request inside)
  obtain ⟨confined, held⟩ :=
    writing_effect owned.placed (fun entry listed => (keys entry listed).1) writing
  refine ⟨placed_of_confined owned.placed confined, fun other among entry listed content there => ?_⟩
  by_cases same : other.digest = request.digest
  · obtain rfl := told among inside same
    rcases held entry.1 (keys entry listed).2 with kept | ⟨file, listed', written⟩
    · exact owned.own other among entry listed content (kept.symm.trans there)
    · -- A name is listed once.
      have first := (get_eq_some_iff other.includes entry.1 entry.2).mpr listed
      have second := (get_eq_some_iff other.includes entry.1 file).mpr listed'
      obtain rfl := Option.some.inj (first.symm.trans second)
      exact Option.some.inj (there.symm.trans written)
  · apply owned.own other among entry listed content
    rw [← there, confined.elsewhere]
    rintro ⟨name, location⟩
    exact same (source_place_injective location).1

theorem owned_of_send (built : ∀ request ∈ met, Made request)
    (told : Set.InjOn Request.digest met) (owned : Owned compiler.cache place met w)
    (inside : request ∈ met) (mild : Mild compiler.cache place compiler.run) :
    Owned compiler.cache place met (leftBy (compiler.send request w)) := by
  have writing := writing_of_materialize request (compiler.cache.sources request.digest) w
  cases done : InstalledCompiler.materialize request (compiler.cache.sources request.digest) w with
  | error error left =>
    rw [done] at writing
    rw [send_of_failed done]
    exact owned_of_writing built told owned inside writing
  | ok answer written =>
    rw [done] at writing
    have owned := owned_of_writing built told owned inside writing
    rw [send_of_written done, left_by_heard]
    exact owned_of_spares owned (mild _ written owned.placed)

theorem owned_of_happens (built : ∀ request ∈ met, Made request)
    (told : Set.InjOn Request.digest met) (owned : Owned cache place met w)
    (happens : Happens cache place met w after) : Owned cache place met after := by
  cases happens with
  | send inside own mild =>
    subst own
    exact owned_of_send built told owned inside mild
  | cutSend inside part => exact owned_of_writing built told owned inside part
  | put => exact owned_of_spares owned (put_spares owned.placed)
  | cutPut part => exact owned_of_spares owned (progress_spares owned.placed part)
  | clear => exact owned_of_spares owned (clear_spares_sources owned.placed)
  | otherwise spares => exact owned_of_spares owned spares

theorem owned_of_run {start : Workspace} (built : ∀ request ∈ met, Made request)
    (told : Set.InjOn Request.digest met) (placed : Placed cache place start)
    (empty : ∀ location, place <+: location → contentAt? start.files location = none)
    (run : Relation.ReflTransGen (Happens cache place met) start w) :
    Owned cache place met w := by
  induction run with
  | refl =>
    refine ⟨placed, fun request inside entry listed content there => ?_⟩
    cases (empty _ (List.prefix_append ..)).symm.trans there
  | tail _ happens owned => exact owned_of_happens built told owned happens

/-- The directory of a request is ready: each of its files is there, with the script of the request. -/
def Ready (cache : Cache) (request : Request) (w : Workspace) : Prop :=
  ∀ entry ∈ request.includes.entries,
    w.read (sourcePath cache request.digest entry.1) = .ok (Text.utf8 entry.2.script.toList)

theorem own_of_owned (built : ∀ request ∈ met, Made request) (owned : Owned cache place met w)
    (inside : request ∈ met) :
    ∀ entry ∈ request.includes.entries, ∀ content,
      w.read (sourcePath cache request.digest entry.1) = .ok content →
        content = Text.utf8 entry.2.script.toList := by
  intro entry listed content read
  have plain := (made_keys (built request inside) entry listed).1
  exact owned.own request inside entry listed content (source_in_place owned.placed plain read)

/-- Where the sources of a request have been written, its directory is ready. -/
theorem ready_of_materialize (built : ∀ request ∈ met, Made request)
    (told : Set.InjOn Request.digest met) (owned : Owned cache place met w)
    (inside : request ∈ met)
    (done : InstalledCompiler.materialize request (cache.sources request.digest) w = .ok () after) :
    Ready cache request after := by
  have writing := writing_of_materialize request (cache.sources request.digest) w
  rw [done] at writing
  have owned' := owned_of_writing built told owned inside writing
  have present := materialized_present owned.placed (made_keys (built request inside)) done
  intro entry listed
  obtain ⟨content, read⟩ := present entry listed
  rw [read, own_of_owned built owned' inside entry listed content read]

/-- From a scratch root without files on, whose path is not a link and below which no links are,
whatever requests are sent, results kept and files cleared, and however any of this fails: a file that
is found under the name of a source in the directory of a request has the script that the request has
under this name. The entry of the request is one of its files. And when a compiler is given the request,
then either its program is not run, whatever it is, or it is run where all files of the request are. -/
theorem compiler_sees_own_sources {start : Workspace} (built : ∀ request ∈ met, Made request)
    (fits : ∀ request ∈ met, RequestFits request)
    (apart : Distinguishes (Request.encode '' met)) (placed : Placed cache place start)
    (empty : ∀ location, place <+: location → contentAt? start.files location = none)
    (run : Relation.ReflTransGen (Happens cache place met) start w) (inside : request ∈ met) :
    (∀ entry ∈ request.includes.entries, ∀ content,
        w.read (sourcePath cache request.digest entry.1) = .ok content →
          content = Text.utf8 entry.2.script.toList) ∧
      (∃ file, (request.entry, file) ∈ request.includes.entries) ∧
      ∀ compiler : InstalledCompiler, compiler.cache = cache →
        (∃ error left, ∀ program,
          { compiler with run := program }.send request w = .error error left) ∨
        ∃ ready, Ready cache request ready ∧ ∀ program,
          { compiler with run := program }.send request w =
            heard compiler (program (callFor compiler request) ready) := by
  have told : Set.InjOn Request.digest met := by
    intro first among second among' same
    exact encode_injective_of_fits (fits first among) (fits second among')
      (apart ⟨first, among, rfl⟩ ⟨second, among', rfl⟩ same)
  have owned := owned_of_run built told placed empty run
  refine ⟨own_of_owned built owned inside, made_entry (built request inside), ?_⟩
  rintro compiler rfl
  rcases send_runs compiler request w with failed | ⟨written, done, runs⟩
  · exact Or.inl failed
  · exact Or.inr ⟨written, ready_of_materialize built told owned inside done, runs⟩

end History

section Examples

/-- A source text with one import. -/
def holderText : List Char := "import \"./D.sol\";".toList

def holderName : String := "2bfc21ff7796269c0481648a30cdea6e5624d95b6a807917da6a2e195b45af0d.sol"

/-- The text with a name in the place of the import. -/
def holderScript (name : String) : String :=
  String.ofList (replaceSpans holderText [(⟨8, 15⟩, name.toList)])

/-- The request for this text where the import leads to a file with this name and this text. -/
def holding (name : String) (text : List Char) : Request where
  language := .solidity
  optimize := false
  libraries := ""
  entry := holderName
  includes := (KeyMap.empty.insert name ⟨[], String.ofList text⟩).insert holderName
    ⟨[], holderScript name⟩

/-- A workspace with the text and, beside it, what it imports. -/
def besides (text : List Char) : Workspace where
  files := ⟨[(["M.sol"], .file (Text.utf8 holderText) false),
    (["D.sol"], .file (Text.utf8 text) false)]⟩
  here := []
  process := 1
  issued := 0

section Holding
variable {name : String} {text : List Char}

private theorem holder_scanned : Import.scan holderText = [⟨"./D.sol", ⟨8, 15⟩⟩] ∧
    Declaration.scan holderText = [] ∧
    (Digest.ofContent (Text.utf8 holderText)).fileName .solidity = holderName := by
  decide +kernel

private theorem beside_looked {path : Path} {content : Bytes} (accepted : Accepted path)
    (pieces : path.pieces = [name] ∨ path.pieces = [".", name]) (isName : IsName name)
    (there : (besides text).files.get? ([] ++ [name]) = some (.file content false)) :
    (besides text).files.lookup [] path = .ok ([name], .file content false) := by
  have walked : walk (besides text).files true maxLinks [] .directory [name] =
      .ok (.taken [name] (.file content false)) := by
    rw [walk_found isName there (by simp), walk]
    rfl
  refine lookup_ok_iff.mpr ⟨accepted, ?_⟩
  rw [ite_self]
  rcases pieces with pieces | pieces
  · rw [pieces, walked]
  · rw [pieces, walk_idle (by decide), walked]

private theorem holder_listed (name : String) (text : List Char) :
    (holderName, ⟨[], holderScript name⟩) ∈ (holding name text).includes.entries :=
  (get_eq_some_iff _ _ _).mp ((get_insert ..).trans (if_pos rfl))

/-- The request is made for the text in this workspace. -/
private theorem holding_made (alone : Import.scan text = []) (undeclared : Declaration.scan text = [])
    (named : (Digest.ofContent (Text.utf8 text)).fileName .solidity = name)
    (other : name ≠ holderName) : Made (holding name text) := by
  obtain ⟨imports, undeclared', named'⟩ := holder_scanned
  have looked : (besides text).files.lookup [] ⟨"M.sol"⟩ =
      .ok (["M.sol"], .file (Text.utf8 holderText) false) :=
    beside_looked (by decide) (Or.inl (by decide)) (by decide) rfl
  have looked' : (besides text).files.lookup [] ⟨"./D.sol"⟩ =
      .ok (["D.sol"], .file (Text.utf8 text) false) :=
    beside_looked (by decide) (Or.inr (by decide)) (by decide) rfl
  let search : Search := ⟨(besides text).files, [], .solidity, []⟩
  have located : search.locate? ((Path.mk "M.sol").parent?.getD ⟨"."⟩) "./D.sol" =
      some ⟨"./D.sol"⟩ := by
    have file : search.files.isFile search.here ⟨"./D.sol"⟩ = true := by
      simp only [search, FileTree.isFile, looked']
    have joined : ((Path.mk "M.sol").parent?.getD ⟨"."⟩).join ⟨"./D.sol"⟩ = ⟨"./D.sol"⟩ := by decide
    have relative : (Path.mk "./D.sol").isAbsolute = false := by decide
    simp [Search.locate?, joined, file, relative]
  have free : (KeyMap.empty.insert name ⟨[], String.ofList text⟩).get? holderName =
      (none : Option IncludedFile) := by
    rw [get_insert, if_neg other.symm]
    rfl
  -- The imported file is added first, then the text itself.
  let root := (search.files.canonical search.here (Path.mk "M.sol").directory).toOption
  let names := (Names.empty.insert name (shownPath root ["D.sol"])).insert holderName
    (shownPath root ["M.sol"])
  have resolved : resolve search ⟨"M.sol"⟩ =
      .ok ⟨holderName, (holding name text).includes, names⟩ := by
    rw [resolve_eq, visit_file looked rfl (of_utf8_utf8 holderText) named', imports]
    simp only [visit_imports_cons, located]
    rw [visit_file looked' rfl (of_utf8_utf8 text) named, alone]
    have missing : (KeyMap.empty : IncludeMap).get? name = none := rfl
    have whole : replaceSpans text [] = text := rfl
    simp only [visit_imports_nil, Walk.start, Walk.visit, Walk.add, missing, whole, undeclared, free,
      undeclared']
    rfl
  have language : Language.ofPath? ⟨"M.sol"⟩ = some .solidity := by decide
  refine ⟨besides text, [], ⟨"M.sol"⟩, ⟨"", false⟩, names, ?_⟩
  unfold prepare
  rw [language]
  dsimp only
  rw [show resolve ⟨(besides text).files, (besides text).here, .solidity, []⟩ ⟨"M.sol"⟩ = _
    from resolved]
  rfl

end Holding

def leftName : String := "ca978112ca1bbdcafac231b39a23dc4da786eff8147c4e72b9807785afee48bb.sol"

def rightName : String := "3e23e8160039594a33894f6564e1b1348bbd7a0088d42c4acb73eeaed59c009d.sol"

/-- The requests for the text beside one file and beside another one. -/
def leftRequest : Request := holding leftName ['a']

def rightRequest : Request := holding rightName ['b']

theorem both_made : Made leftRequest ∧ Made rightRequest := by
  have left : Import.scan ['a'] = [] ∧ Declaration.scan ['a'] = [] ∧
      (Digest.ofContent (Text.utf8 ['a'])).fileName .solidity = leftName := by
    decide +kernel
  have right : Import.scan ['b'] = [] ∧ Declaration.scan ['b'] = [] ∧
      (Digest.ofContent (Text.utf8 ['b'])).fileName .solidity = rightName := by
    decide +kernel
  exact ⟨holding_made left.1 left.2.1 left.2.2 (by decide),
    holding_made right.1 right.2.1 right.2.2 (by decide)⟩

private theorem both_apart : leftRequest.digest ≠ rightRequest.digest := by
  decide +kernel

theorem small_sources_above (digest : Digest) :
    (smallCache.sources digest).parent? = some (smallCache.directory digest) :=
  sources_parent digest (show steps smallCache.root = "c" :: [] by decide) (by decide)

theorem two_names_stocked : Stocked smallCache ["c"] [] 0 twoNames :=
  ⟨two_names_rooted, two_names_placed, rfl, Nat.le_refl 0, fun digest _ => two_names_new digest⟩

/-- A compiler that has its sources in the small cache. -/
def smallCompiler (run : ProgramRunner) : InstalledCompiler := ⟨"solc", smallCache, 30000, run⟩

/-- The program that cannot be started. -/
def absentProgram : ProgramRunner := fun _ w => (.notStarted .notFound, w)

/-- A request whose sources can be written is sent, though its program is missing. -/
private theorem sent_in_vain {met : Set Request} {request : Request} {w after : Workspace}
    (inside : request ∈ met)
    (done : InstalledCompiler.materialize request (smallCache.sources request.digest) w =
      .ok () after) : Happens smallCache ["c"] met w after := by
  have mild : Mild smallCache ["c"] absentProgram := fun _ _ placed => spares_sources_refl placed
  have sent : (smallCompiler absentProgram).send request w = .error _ after := send_of_written done
  have happens := @Happens.send _ ["c"] met (smallCompiler absentProgram) request inside rfl mild w
  rwa [sent] at happens

/-- Two requests have different scripts under the name of one text. When both have been sent, each has
its own script under this name in its own directory. The program of the second one is run where all of
its files are, though the name was there for the first one before. -/
theorem shared_name_seen :
    holderScript leftName ≠ holderScript rightName ∧ ∃ middle after,
      Happens smallCache ["c"] {leftRequest, rightRequest} twoNames middle ∧
      Happens smallCache ["c"] {leftRequest, rightRequest} middle after ∧
      after.read (sourcePath smallCache leftRequest.digest holderName) =
        .ok (Text.utf8 (holderScript leftName).toList) ∧
      after.read (sourcePath smallCache rightRequest.digest holderName) =
        .ok (Text.utf8 (holderScript rightName).toList) ∧
      ∃ ready, Ready smallCache rightRequest ready ∧ ∀ program,
        (smallCompiler program).send rightRequest middle =
          heard (smallCompiler absentProgram)
            (program (callFor (smallCompiler absentProgram) rightRequest) ready) := by
  have built : ∀ request ∈ ({leftRequest, rightRequest} : Set Request), Made request := by
    rintro _ (rfl | rfl)
    · exact both_made.1
    · exact both_made.2
  have fits : ∀ request ∈ ({leftRequest, rightRequest} : Set Request), RequestFits request := by
    rintro _ (rfl | rfl) <;> decide +kernel
  have apart : Distinguishes (Request.encode '' {leftRequest, rightRequest}) := by
    rintro _ ⟨_, rfl | rfl, rfl⟩ _ ⟨_, rfl | rfl, rfl⟩ same
    · rfl
    · exact absurd same both_apart
    · exact absurd same.symm both_apart
    · rfl
  have empty : ∀ location, ["c"] <+: location → contentAt? twoNames.files location = none := by
    intro location inside
    by_cases root : location = ["c"]
    · subst root
      rfl
    · rw [contentAt?, two_names_bare location inside root]
  have sizes : leftRequest.includes.entries.length = 2 ∧
      rightRequest.includes.entries.length = 2 := by decide +kernel
  obtain ⟨middle, done, stocked⟩ := stocked_materialize two_names_stocked small_roomy
    (small_sources_above leftRequest.digest) List.not_mem_nil (made_short both_made.1)
    (by rw [sizes.1]; decide)
  obtain ⟨after, done', -⟩ := stocked_materialize stocked small_roomy
    (small_sources_above rightRequest.digest)
    (fun inside => both_apart (List.mem_singleton.mp inside).symm) (made_short both_made.2)
    (by rw [sizes.1, sizes.2]; decide)
  have happens : Happens smallCache ["c"] {leftRequest, rightRequest} twoNames middle :=
    sent_in_vain (by simp) done
  have happens' : Happens smallCache ["c"] {leftRequest, rightRequest} middle after :=
    sent_in_vain (by simp) done'
  -- Whatever is found is right, by the theorem; that something is found, by what has been written.
  obtain ⟨own, -⟩ := compiler_sees_own_sources built fits apart two_names_placed empty
    ((Relation.ReflTransGen.single happens).tail happens') (Set.mem_insert leftRequest _)
  obtain ⟨own', -⟩ := compiler_sees_own_sources built fits apart two_names_placed empty
    ((Relation.ReflTransGen.single happens).tail happens')
    (Set.mem_insert_of_mem leftRequest (Set.mem_singleton rightRequest))
  obtain ⟨-, -, started⟩ := compiler_sees_own_sources built fits apart two_names_placed empty
    (.single happens) (Set.mem_insert_of_mem leftRequest (Set.mem_singleton rightRequest))
  have found := materialized_present two_names_placed (made_keys both_made.1) done _
    (holder_listed leftName ['a'])
  have writing := writing_of_materialize rightRequest (smallCache.sources rightRequest.digest) middle
  rw [done'] at writing
  have writing : Writing (smallCache.sources rightRequest.digest) rightRequest.includes.entries middle
    after := writing
  have short := made_short both_made.1 _ (holder_listed leftName ['a'])
  obtain ⟨content, read⟩ := read_kept stocked.placed short.fit.plain short.lasting
    (fun entry listed => (made_keys both_made.2 entry listed).1) writing found
  obtain ⟨content', read'⟩ := materialized_present stocked.placed (made_keys both_made.2) done' _
    (holder_listed rightName ['b'])
  have same := own _ (holder_listed leftName ['a']) content read
  have same' := own' _ (holder_listed rightName ['b']) content' read'
  refine ⟨by decide, middle, after, happens, happens', same ▸ read, same' ▸ read', ?_⟩
  rcases started (smallCompiler absentProgram) rfl with ⟨error, left, failed⟩ | ready
  · -- The sources can be written, so a program that ends well is run.
    have ended : (smallCompiler fun _ w => (.ended 0 [] [], w)).send rightRequest middle =
        .ok ⟨_, false⟩ after := send_of_written done'
    cases ended.symm.trans (failed _)
  · exact ready

end Examples

end ContractBuild.SourcesSeen
