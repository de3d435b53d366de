import ContractBuild.Pipeline
import ContractBuild.Proofs.CacheRoom
import ContractBuild.Proofs.Resolution

/-! What one compilation does, by cases: what is in the cache is answered and nothing changes, and
what is not there goes to a compiler, whose response is kept unless it is a rejection. The cases are
met in a small workspace with an empty cache. -/
namespace ContractBuild.CompileSteps
open CacheChange CachePlace CacheRoom FileTree PathPieces PathRoute PathWalk Resolution

variable {σ : Type} {pipeline : Pipeline σ} {entry : Path} {options : Options}
  (world : World σ) {after : World σ} {prepared : Prepared} {output : CompilerOutput}
  {response : Response}

/-- What is prepared for a compilation is what is made for its entry file. -/
theorem prepare_of_prepared {w : Workspace}
    (made : pipeline.prepared w entry options = .ok prepared) :
    prepare w pipeline.roots entry options = .ok prepared := by
  unfold Pipeline.prepared at made
  split at made
  · rename_i prepared' made'
    obtain rfl := Except.ok.inj made
    exact made'
  · cases made

theorem compile_of_unprepared {error : PipelineError}
    (failed : pipeline.prepared world.workspace entry options = .error error) :
    pipeline.compile entry options world = .error error world := by
  unfold Pipeline.compile
  simp only [failed]

theorem compile_of_hit
    (made : pipeline.prepared world.workspace entry options = .ok prepared)
    (hit : pipeline.cached? world.workspace prepared.request = some response) :
    pipeline.compile entry options world = .ok (response.restore prepared.names) world := by
  unfold Pipeline.compile
  simp only [made, hit]

section Miss
variable (made : pipeline.prepared world.workspace entry options = .ok prepared)
  (missed : pipeline.cached? world.workspace prepared.request = none)
include made missed

theorem compile_of_no_verdict {error : DispatchError}
    (failed : pipeline.dispatch prepared.request world = .error error after) :
    pipeline.compile entry options world = .error (.dispatch error) after := by
  unfold Pipeline.compile Pipeline.build
  simp only [made, missed, failed]

variable (sent : pipeline.dispatch prepared.request world = .ok output after)
include sent

theorem compile_of_unreadable {error : DecodeError}
    (failed : pipeline.reader.read output = .error error) :
    pipeline.compile entry options world =
      .error (.decode ⟨prepared.names.restore error.warning⟩) after := by
  unfold Pipeline.compile Pipeline.build
  simp only [made, missed, sent, failed]

variable (read : pipeline.reader.read output = .ok response)
include read

theorem compile_of_rejection (rejected : response.isRejection = true) :
    pipeline.compile entry options world = .ok (response.restore prepared.names) after := by
  unfold Pipeline.compile Pipeline.build
  simp only [made, missed, sent, read, rejected, ↓reduceIte]

theorem compile_of_put {kept : Workspace} (accepted : response.isRejection = false)
    (put : pipeline.cache.put prepared.request.digest response response.version after.workspace =
      .ok () kept) :
    pipeline.compile entry options world =
      .ok (response.restore prepared.names) { after with workspace := kept } := by
  unfold Pipeline.compile Pipeline.build Act.onDisk
  simp only [made, missed, sent, read, accepted, Bool.false_eq_true, ↓reduceIte, put]

theorem compile_of_failed_put {left : Workspace} {cause : CacheError}
    (accepted : response.isRejection = false)
    (put : pipeline.cache.put prepared.request.digest response response.version after.workspace =
      .error cause left) :
    pipeline.compile entry options world =
      .error (.cache cause) { after with workspace := left } := by
  unfold Pipeline.compile Pipeline.build Act.onDisk
  simp only [made, missed, sent, read, accepted, Bool.false_eq_true, ↓reduceIte, put]

end Miss

/-- A request for which no result is kept is not in the cache. -/
theorem not_cached {place : Location} {w : Workspace} (placed : Placed pipeline.cache place w)
    {request : Request} (nothing : resultAt? place w request.digest = none) :
    pipeline.cached? w request = none := by
  have absent : pipeline.cache.getEntry? w request.digest = none := by
    rw [Option.eq_none_iff_forall_ne_some]
    intro entry found
    obtain ⟨content, -, -, -, there, -⟩ := entry_of_result placed found
    rw [nothing] at there
    cases there
  rw [Pipeline.cached?, absent]
  rfl

section Workspace

/-- The name of the empty content. -/
def emptyName : String := "e3b0c44298fc1c149afbf4c8996fb92427ae41e4649b934ca495991b7852b855.sol"

private theorem empty_name : (Digest.ofContent []).fileName .solidity = emptyName := by
  decide +kernel

/-- The request for an entry file that is empty. -/
def emptyRequest : Request where
  language := .solidity
  optimize := false
  libraries := ""
  entry := emptyName
  includes := KeyMap.empty.insert emptyName ⟨[], ""⟩

/-- The cache in the directory `c`. -/
def smallCache : Cache := ⟨⟨"c"⟩⟩

/-- A workspace in which this cache is empty, with two empty source files. -/
def twoNames : Workspace where
  files := ⟨[(["c"], .directory), (["M.sol"], .file [] false), (["N.sol"], .file [] false)]⟩
  here := []
  process := 1
  issued := 0

/-- For an empty source file in the working directory the same request is made, whatever the name of
the file; only the name shown is its own. -/
theorem prepared_empty {w : Workspace} {name : String} (optimize : Bool)
    (rootless : pipeline.roots = [])
    (there : w.files.get? (w.here ++ [name]) = some (.file [] false))
    (named : Plain name ∧ IsName name ∧ Accepted ⟨name⟩)
    (read : Language.ofPath? ⟨name⟩ = some .solidity ∧ (Path.mk name).directory = ⟨"."⟩) :
    pipeline.prepared w ⟨name⟩ ⟨"", optimize⟩ =
      .ok ⟨{ emptyRequest with optimize }, Source.Names.empty.insert emptyName ⟨name⟩⟩ := by
  obtain ⟨plain, isName, accepted⟩ := named
  obtain ⟨language, directory⟩ := read
  have looked : w.files.lookup w.here ⟨name⟩ = .ok (w.here ++ [name], .file [] false) := by
    refine lookup_ok_iff.mpr ⟨accepted, ?_⟩
    rw [plain_pieces plain, plain_relative plain, if_neg (by simp)]
    exact (walk_found isName there (by simp)).trans (by rw [walk])
  have root : w.files.canonical w.here ⟨"."⟩ = .ok w.here := by
    have reached : w.files.lookup w.here ⟨"."⟩ = .ok (w.here, .directory) := by
      refine lookup_ok_iff.mpr ⟨by decide, ?_⟩
      rw [show (Path.mk ".").pieces = ["."] by decide, if_neg (by decide), walk_idle (by decide), walk]
    rw [canonical, reached]
    rfl
  have shown : Source.shownPath (some w.here) (w.here ++ [name]) = ⟨name⟩ := by
    have below : Location.below? w.here (w.here ++ [name]) = some [name] :=
      Location.below?_eq_some_iff.mpr rfl
    simp [Source.shownPath, below, Path.ofPieces, Text.join]
  have decoded : Text.ofUtf8? [] = some [] := by decide
  have alone : Source.resolve ⟨w.files, w.here, .solidity, []⟩ ⟨name⟩ = .ok _ :=
    resolve_alone looked decoded (by decide +kernel)
  rw [directory, root, Except.toOption, shown, empty_name] at alone
  have scanned : Source.Declaration.scan [] = [] := by decide +kernel
  rw [scanned] at alone
  simp only [Pipeline.prepared, prepare, language, rootless, alone]
  rfl

theorem two_names_prepared (rootless : pipeline.roots = []) :
    pipeline.prepared twoNames ⟨"M.sol"⟩ ⟨"", false⟩ =
      .ok ⟨emptyRequest, Source.Names.empty.insert emptyName ⟨"M.sol"⟩⟩ :=
  prepared_empty false rootless rfl (by decide) (by decide)

theorem two_names_bare (location : Location) (inside : ["c"] <+: location)
    (inner : location ≠ ["c"]) : twoNames.files.get? location = none := by
  obtain ⟨rest, rfl⟩ := inside
  have below : rest ≠ [] := by simpa using inner
  simp [FileTree.get?, twoNames, below]

theorem two_names_new (digest : Digest) (location : Location)
    (inside : ["c"] ++ [digest.toHex] <+: location) :
    twoNames.files.get? location = none := by
  refine two_names_bare location ((List.prefix_append _ _).trans inside) ?_
  rintro rfl
  have := inside.length_le
  simp at this

private theorem two_names_linkless : Linkless twoNames.files := by
  intro location target
  unfold FileTree.get? twoNames
  split
  · simp
  · by_cases first : ["c"] = location
    · simp [first]
    · by_cases second : ["M.sol"] = location
      · simp [first, second]
      · by_cases third : ["N.sol"] = location <;> simp [first, second, third]

private theorem two_names_root (follow : Bool) :
    walk twoNames.files follow maxLinks [] .directory ["c"] =
      .ok (.taken ["c"] .directory) := by
  have name : IsName "c" := by decide
  exact (walk_found name (show _ = some Node.directory from rfl) (by simp)).trans (by rw [walk]; rfl)

theorem two_names_rooted : Rooted smallCache ["c"] twoNames := by
  have pieces : steps smallCache.root = ["c"] := by decide
  rw [Rooted, pieces]
  exact two_names_root true

theorem two_names_placed : Placed smallCache ["c"] twoNames where
  leads := route_of_walk two_names_rooted
  unlinked := by
    have pieces : smallCache.root.pieces = ["c"] := by decide
    rw [pieces]
    exact route_of_walk (two_names_root false)
  linkless location target _ := two_names_linkless location target

theorem small_roomy : Roomy smallCache.root := by decide

theorem two_names_missed (own : pipeline.cache = smallCache) (request : Request) :
    pipeline.cached? twoNames request = none := by
  refine not_cached (own ▸ two_names_placed) ?_
  rw [Option.eq_none_iff_forall_ne_some]
  intro content there
  obtain ⟨executable, there⟩ := file_of_content there
  rw [two_names_new request.digest _ ⟨[Cache.resultName], by simp [artifactPlace]⟩] at there
  cases there

/-- The first put into the empty cache succeeds. -/
theorem two_names_put (digest : Digest) (response : Response) :
    ∃ after, smallCache.put digest response response.version twoNames = .ok () after ∧
      Filled ["c"] digest (keptForm response response.version) twoNames after :=
  put_succeeds response response.version two_names_rooted small_roomy (two_names_new digest)
    ⟨(temporary_plain result_plain _ _).1, by decide, by decide⟩

/-- What was put first is found again if its form can be read. -/
theorem two_names_entry {digest : Digest} {content : Bytes} {after : Workspace}
    (filled : Filled ["c"] digest content twoNames after) {artifact : Artifact}
    {response : Response} {rest : Bytes} (decoded : Artifact.decode? content = some artifact)
    (read : Codec.readResponse? artifact.payload = some (response, rest)) :
    smallCache.getEntry? after digest = some ⟨response, artifact.compilerVersion⟩ :=
  entry_of_filled (rooted_of_filled two_names_rooted (two_names_new digest) filled) small_roomy
    filled decoded read

/-- After that both files are still made into the same request. -/
theorem two_names_prepared_after (rootless : pipeline.roots = []) {content : Bytes}
    {after : Workspace} (filled : Filled ["c"] emptyRequest.digest content twoNames after)
    {name : String} (listed : name ∈ ["M.sol", "N.sol"]) :
    pipeline.prepared after ⟨name⟩ ⟨"", false⟩ =
      .ok ⟨emptyRequest, Source.Names.empty.insert emptyName ⟨name⟩⟩ := by
  have there : ∀ name, name ≠ "c" → twoNames.files.get? [name] = some (.file [] false) →
      after.files.get? (after.here ++ [name]) = some (.file [] false) := by
    intro name other there
    rw [show after.here = [] from filled.here, List.nil_append, filled.elsewhere _ (by simp), there]
  simp only [List.mem_cons, List.not_mem_nil, or_false] at listed
  rcases listed with rfl | rfl <;>
    exact prepared_empty false rootless (there _ (by decide) rfl) (by decide) (by decide)

end Workspace

end ContractBuild.CompileSteps
