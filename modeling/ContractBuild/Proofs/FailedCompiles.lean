import ContractBuild.Proofs.CompilerCalls
import ContractBuild.Proofs.DetourRoot
import ContractBuild.Proofs.SourcesWritten

/-! What a failure leaves of a cache. A compilation may fail at any of its steps, some of which have
changed files by then: sources are written beside the results, and what is to be kept is written under
a temporary name. None of this is the file of a result, so whatever was found is found unchanged. -/
namespace ContractBuild.FailedCompiles
open ArtifactFile CacheChange CachePlace CacheRoom CacheTransparency CompilerCalls CompileSteps
open DetourRoot FileTree PathPieces PathWalk ShownNames SourcesSpared SourcesWritten WriterSteps
open WrittenFiles

variable {σ : Type} {cache : Cache} {place : Location} {w middle after : Workspace}

section Results
variable {digest : Digest} {content : Bytes}

/-- A change keeps the results of a cache: every file of a result has the content that it had, if there
is one, and is found by its path if it was. -/
structure KeepsResults (cache : Cache) (place : Location) (w after : Workspace) : Prop where
  placed : Placed cache place after
  results : ∀ digest, resultAt? place after digest = resultAt? place w digest
  found : ∀ digest content, w.read (cache.file digest Cache.resultName) = .ok content →
    after.read (cache.file digest Cache.resultName) = .ok content

theorem keeps_refl (placed : Placed cache place w) : KeepsResults cache place w w :=
  ⟨placed, fun _ => rfl, fun _ _ read => read⟩

theorem keeps_trans (first : KeepsResults cache place w middle)
    (second : KeepsResults cache place middle after) : KeepsResults cache place w after where
  placed := second.placed
  results digest := (second.results digest).trans (first.results digest)
  found digest content read := second.found digest content (first.found digest content read)

/-- A change that is confined to locations of no results keeps the results. -/
theorem keeps_of_confined {changed : Location → Prop} (placed : Placed cache place w)
    (confined : Confined changed w after)
    (apart : ∀ digest, ¬ changed (artifactPlace place digest Cache.resultName)) :
    KeepsResults cache place w after where
  placed := placed_of_confined placed confined
  results digest := confined.elsewhere _ (apart digest)
  found digest _ read :=
    found_of_confined placed result_plain confined (confined.elsewhere _ (apart digest)) read

/-- The entry that the content of a result's file comes to. -/
def entryIn? (content : Bytes) : Option CacheEntry := do
  let artifact ← Artifact.decode? content
  let (value, _) ← Codec.readResponse? artifact.payload
  return ⟨value, artifact.compilerVersion⟩

theorem entry_of_read (read : w.read (cache.file digest Cache.resultName) = .ok content) :
    cache.getEntry? w digest = entryIn? content := by
  rw [Cache.getEntry?, read_artifact_of_read read, entryIn?]

theorem entry_of_unread {error : FileError}
    (unread : w.read (cache.file digest Cache.resultName) = .error error) :
    cache.getEntry? w digest = none := by
  rw [Cache.getEntry?, unread_artifact unread]
  rfl

/-- If the results are kept, every entry is found as it was. Only where there was a file that the path
of the result did not lead to, this file may be found. -/
theorem entry_of_keeps (keeps : KeepsResults cache place w after) (digest : Digest) :
    (∀ entry, cache.getEntry? w digest = some entry → cache.getEntry? after digest = some entry) ∧
      (cache.getEntry? after digest = cache.getEntry? w digest ∨
        (∀ content, w.read (cache.file digest Cache.resultName) ≠ .ok content) ∧
          ∃ content, resultAt? place w digest = some content ∧
            cache.getEntry? after digest = entryIn? content) := by
  cases read : w.read (cache.file digest Cache.resultName) with
  | ok content =>
    have same : cache.getEntry? after digest = cache.getEntry? w digest := by
      rw [entry_of_read read, entry_of_read (keeps.found digest content read)]
    exact ⟨fun entry found => same.trans found, Or.inl same⟩
  | error lost =>
    refine ⟨fun entry found => ?_, ?_⟩
    · rw [entry_of_unread read] at found
      cases found
    · cases later : after.read (cache.file digest Cache.resultName) with
      | error lost' => exact Or.inl (by rw [entry_of_unread read, entry_of_unread later])
      | ok content =>
        have there := read_in_cache keeps.placed result_plain later
        exact Or.inr ⟨by simp, content, (keeps.results digest).symm.trans there,
          entry_of_read later⟩

end Results

section Compilers
variable {compiler : InstalledCompiler} {request : Request} {world : World σ}

/-- Writing sources keeps the results, wherever it stops. -/
theorem writing_keeps {digest : Digest} (placed : Placed cache place w) (plain : PlainFiles request)
    (writing : Writing (cache.sources digest) request.includes.entries w after) :
    KeepsResults cache place w after := by
  apply keeps_of_confined placed (writing_effect placed plain writing).1
  rintro other ⟨name, same⟩
  have lengths := congrArg List.length same
  simp [artifactPlace, sourcePlace] at lengths

/-- A program leaves the results of a cache alone. -/
def LeavesAlone (cache : Cache) (place : Location) (run : ProgramRunner) : Prop :=
  ∀ call w, Placed cache place w → KeepsResults cache place w (run call w).2

theorem send_keeps (alone : LeavesAlone compiler.cache place compiler.run)
    (plain : PlainFiles request) (placed : Placed compiler.cache place w) :
    KeepsResults compiler.cache place w (leftBy (compiler.send request w)) := by
  have writing := writing_of_materialize request (compiler.cache.sources request.digest) w
  cases done : InstalledCompiler.materialize request (compiler.cache.sources request.digest) w with
  | error error left =>
    rw [done] at writing
    rw [send_of_failed done]
    exact writing_keeps placed plain writing
  | ok answer written =>
    rw [done] at writing
    have keeps := writing_keeps placed plain writing
    rw [send_of_written done, left_by_heard]
    exact keeps_trans keeps (alone _ written keeps.placed)

/-- A compiler does what an installed one does, except that its work on files may fail at any point
while it writes the sources. -/
def ActsAs (compiler : InstalledCompiler) (faulty : Compiler σ) : Prop :=
  ∀ request world, faulty.send request world = compiler.toCompiler.send request world ∨
    ∃ path cause left, faulty.send request world =
        .error (.materialize path cause) { world with workspace := left } ∧
      Writing (compiler.cache.sources request.digest) request.includes.entries world.workspace left

theorem acts_as_self (compiler : InstalledCompiler) :
    ActsAs compiler (compiler.toCompiler : Compiler σ) :=
  fun _ _ => Or.inl rfl

/-- The compilers of a pipeline with this cache: a service, an installed compiler that has its sources
in the cache, its work on files failing or not, and any other one that keeps the results. -/
inductive Tame (cache : Cache) (place : Location) : Compiler σ → Prop where
  | service (service : CompilerService) : Tame cache place service.toCompiler
  | installed {compiler : InstalledCompiler} {faulty : Compiler σ} (own : compiler.cache = cache)
      (acts : ActsAs compiler faulty) (alone : LeavesAlone cache place compiler.run) :
      Tame cache place faulty
  | other {compiler : Compiler σ}
      (keeps : ∀ request world, Placed cache place world.workspace →
        KeepsResults cache place world.workspace (worldOf (compiler.send request world)).workspace) :
      Tame cache place compiler

theorem tame_keeps {compiler : Compiler σ} (tame : Tame cache place compiler)
    (plain : PlainFiles request) (placed : Placed cache place world.workspace) :
    KeepsResults cache place world.workspace
      (worldOf (compiler.send request world)).workspace := by
  cases tame with
  | service service =>
    simp only [CompilerService.toCompiler]
    cases service.send request <;> exact keeps_refl placed
  | @installed installed _ own acts alone =>
    subst own
    rcases acts request world with same | ⟨path, cause, left, failed, writing⟩
    · have keeps := send_keeps alone plain placed
      rw [same]
      simp only [InstalledCompiler.toCompiler, Act.onDisk]
      cases sent : installed.send request world.workspace with
      | ok output last =>
        rw [sent] at keeps
        exact keeps
      | error error last =>
        rw [sent] at keeps
        exact keeps
    · rw [failed]
      exact writing_keeps placed plain writing
  | other keeps => exact keeps request world placed

end Compilers

section Failures
variable {pipeline : Pipeline σ} {entry : Path} {options : Options} {world last : World σ}
  {result : EStateM.Result PipelineError (World σ) Response} {request : Request}

/-- The compilers of a pipeline are tame. -/
structure TamePipeline (pipeline : Pipeline σ) (place : Location) : Prop where
  first : Tame pipeline.cache place pipeline.primary
  standIn : ∀ second, pipeline.fallback = some second → Tame pipeline.cache place second

theorem asked_keeps {calls : List Call} {answer : Except DispatchError CompilerOutput}
    (tame : TamePipeline pipeline place) (plain : PlainFiles request)
    (placed : Placed pipeline.cache place world.workspace)
    (asked : Asked pipeline request world calls answer last) :
    KeepsResults pipeline.cache place world.workspace last.workspace := by
  have keeping : ∀ {compiler : Compiler σ} {world after : World σ}
      {answer : Except DispatchError CompilerOutput}, Tame pipeline.cache place compiler →
      Placed pipeline.cache place world.workspace →
      compiler.send request world = resultOf after answer →
      KeepsResults pipeline.cache place world.workspace after.workspace := by
    intro compiler world after answer tame placed sent
    have keeps := tame_keeps tame plain placed
    rwa [sent, answer_of_result.2] at keeps
  cases asked with
  | first sent _ => exact keeping tame.first placed sent
  | @standIn error _ second middle _ sent _ set sent' =>
    have sent : pipeline.primary.send request world = resultOf middle (.error error) := sent
    have keeps := keeping tame.first placed sent
    exact keeps_trans keeps (keeping (tame.standIn second set) keeps.placed sent')

/-- A writer of a result that stops before the file is in its place keeps the results, its own
included. -/
theorem cut_keeps {digest : Digest} {content : Bytes} {stage : Stage}
    (placed : Placed cache place w)
    (part : Progress ⟨cache.directory digest, Cache.resultName, content⟩ (w, .starting)
      (after, stage)) (unmoved : stage ≠ .moved) : KeepsResults cache place w after := by
  have inside : Inside cache [digest.toHex] ⟨cache.directory digest, Cache.resultName, content⟩ :=
    ⟨rfl, directory_plain digest, result_plain⟩
  apply keeps_of_confined placed (progress_effect placed inside part).1
  rintro other (⟨number, same⟩ | ⟨moved, -⟩)
  · have names := List.append_cancel_left same
    simp only [List.cons_append, List.nil_append, List.cons.injEq, and_true] at names
    exact (temporary_plain result_plain w.process number).2 names.2.symm
  · exact unmoved moved

theorem failed_put_keeps {digest : Digest} {response : Response} {version : String}
    {cause : CacheError} (placed : Placed cache place w)
    (failed : cache.put digest response version w = .error cause after) :
    KeepsResults cache place w after := by
  rcases error_of_bind failed with failed | ⟨path, written, -, ended⟩
  · obtain ⟨stage, unmoved, part⟩ := progress_of_failed_artifact failed
    exact cut_keeps placed part unmoved
  · cases ended

/-- What a compilation may come to: what it comes to if the system does all that it is asked to, and if
there is a response to be kept, the error of a writer that was stopped at any of its steps. -/
inductive Outcome (pipeline : Pipeline σ) (entry : Path) (options : Options) (world : World σ) :
    EStateM.Result PipelineError (World σ) Response → Prop where
  | whole : Outcome pipeline entry options world (pipeline.compile entry options world)
  | cut {prepared : Prepared} {output : CompilerOutput} {response : Response} {last : World σ}
      {left : Workspace} {stage : Stage}
      (made : pipeline.prepared world.workspace entry options = .ok prepared)
      (missed : pipeline.cached? world.workspace prepared.request = none)
      (sent : pipeline.dispatch prepared.request world = .ok output last)
      (read : pipeline.reader.read output = .ok response)
      (accepted : response.isRejection = false)
      (part : Progress ⟨pipeline.cache.directory prepared.request.digest, Cache.resultName,
        keptForm response response.version⟩ (last.workspace, .starting) (left, stage))
      (unmoved : stage ≠ .moved) (cause : CacheError) :
      Outcome pipeline entry options world
        (.error (.cache cause) { last with workspace := left })

/-- A compilation has failed, or its response is for a source that was rejected. -/
def Failed : EStateM.Result PipelineError (World σ) Response → Prop
  | .ok response _ => response.error ≠ ""
  | .error _ _ => True

/-- A response that shows an error had one before paths were put into it. -/
theorem rejection_of_shown {prepared : Prepared} {response : Response}
    (made : pipeline.prepared w entry options = .ok prepared)
    (shown : (response.restore prepared.names).error ≠ "") : response.isRejection = true := by
  have named := prepared_named (prepare_of_prepared made)
  by_contra accepted
  have blank : response.error = "" := by simpa [Response.isRejection] using accepted
  apply shown
  rw [Response.restore, blank]
  exact restore_empty named

/-- After the last answer of a compiler, a compilation that fails keeps the results. -/
theorem outcome_keeps {prepared : Prepared} {answer : Except DispatchError CompilerOutput}
    (made : pipeline.prepared w entry options = .ok prepared)
    (placed : Placed pipeline.cache place last.workspace)
    (failed : Failed (outcome pipeline prepared answer last)) :
    KeepsResults pipeline.cache place last.workspace
      (worldOf (outcome pipeline prepared answer last)).workspace := by
  cases answer with
  | error error => exact keeps_refl placed
  | ok output =>
    unfold outcome at failed ⊢
    cases read : pipeline.reader.read output with
    | error error =>
      simp only [read]
      exact keeps_refl placed
    | ok response =>
      simp only [read] at failed ⊢
      by_cases rejected : response.isRejection = true
      · rw [if_pos rejected]
        exact keeps_refl placed
      · rw [if_neg rejected] at failed ⊢
        cases put : pipeline.cache.put prepared.request.digest response response.version
            last.workspace with
        | ok answer kept =>
          rw [put] at failed
          exact absurd (rejection_of_shown made failed) rejected
        | error cause left => exact failed_put_keeps placed put

/-- A compilation that fails keeps the results. -/
theorem failure_keeps (tame : TamePipeline pipeline place)
    (placed : Placed pipeline.cache place world.workspace)
    (outcome : Outcome pipeline entry options world result) (failed : Failed result) :
    KeepsResults pipeline.cache place world.workspace (worldOf result).workspace := by
  have dispatched : ∀ {prepared : Prepared} {answer : Except DispatchError CompilerOutput}
      {last : World σ}, pipeline.prepared world.workspace entry options = .ok prepared →
      pipeline.dispatch prepared.request world = resultOf last answer →
      KeepsResults pipeline.cache place world.workspace last.workspace := by
    intro prepared answer last made sent
    obtain ⟨calls, answer', last', asked⟩ := asked_exists pipeline prepared.request world
    have same := congrArg worldOf (sent.symm.trans (dispatch_of_asked asked))
    rw [answer_of_result.2, answer_of_result.2] at same
    subst same
    exact asked_keeps tame (prepared_plain (prepare_of_prepared made)) placed asked
  cases outcome with
  | cut made missed sent read accepted part unmoved cause =>
    have keeps := @dispatched _ (.ok _) _ made sent
    exact keeps_trans keeps (cut_keeps keeps.placed part unmoved)
  | whole =>
    cases made : pipeline.prepared world.workspace entry options with
    | error error =>
      rw [compile_of_unprepared world made]
      exact keeps_refl placed
    | ok prepared =>
      cases held : pipeline.cached? world.workspace prepared.request with
      | some response =>
        rw [compile_of_hit world made held]
        exact keeps_refl placed
      | none =>
        have sent := result_of_answer (pipeline.dispatch prepared.request world)
        have keeps := dispatched made sent
        rw [compile_of_sent made held sent] at failed ⊢
        exact keeps_trans keeps (outcome_keeps made keeps.placed failed)

/-- A compilation that fails at any of its steps, or whose source is rejected, loses no entry of the
cache and changes none, for any digest: what is found is what was found. Only where there was a file of
a result to which its path did not lead before, the file may be found, with the content that it had. -/
theorem failure_keeps_entries (tame : TamePipeline pipeline place)
    (placed : Placed pipeline.cache place world.workspace)
    (outcome : Outcome pipeline entry options world result) (failed : Failed result)
    (digest : Digest) :
    (∀ kept, pipeline.cache.getEntry? world.workspace digest = some kept →
        pipeline.cache.getEntry? (worldOf result).workspace digest = some kept) ∧
      (pipeline.cache.getEntry? (worldOf result).workspace digest =
          pipeline.cache.getEntry? world.workspace digest ∨
        (∀ content, world.workspace.read (pipeline.cache.file digest Cache.resultName) ≠
            .ok content) ∧
          ∃ content, resultAt? place world.workspace digest = some content ∧
            pipeline.cache.getEntry? (worldOf result).workspace digest = entryIn? content) :=
  entry_of_keeps (failure_keeps tame placed outcome failed) digest

end Failures

section Examples

/-- An installed compiler whose program is not there. -/
def absentCompiler (root : Path) : InstalledCompiler :=
  ⟨"solc", ⟨root⟩, 30000, fun _ w => (.notStarted .notFound, w)⟩

/-- A pipeline that has no other compiler. -/
def deserted (root : Path) (version : Option String) : Pipeline Unit where
  roots := []
  primary := (absentCompiler root).toCompiler
  fallback := none
  reader := { OutputReader.default with assumedVersion := version }
  cache := ⟨root⟩

private theorem deserted_tame (root : Path) (version : Option String) (place : Location) :
    TamePipeline (deserted root version) place where
  first := .installed rfl (acts_as_self _) fun _ _ placed => keeps_refl placed
  standIn _ set := by cases set

/-- No request is compiled by it, whether its sources can be written or not. -/
private theorem absent_fails (root : Path) (request : Request) (w : Workspace) :
    ∃ error left, (absentCompiler root).send request w = .error error left := by
  cases done : InstalledCompiler.materialize request ((absentCompiler root).cache.sources
      request.digest) w with
  | error error left => exact ⟨error, left, send_of_failed done⟩
  | ok answer written => exact ⟨_, written, send_of_written done⟩

private theorem deserted_dispatch {root : Path} (version : Option String) {request : Request}
    {error : DispatchError} {left : Workspace}
    (sent : (absentCompiler root).send request w = .error error left) :
    (deserted root version).dispatch request ⟨w, ()⟩ = .error error ⟨left, ()⟩ := by
  have first : (deserted root version).primary.send request ⟨w, ()⟩ = .error error ⟨left, ()⟩ := by
    simp only [deserted, InstalledCompiler.toCompiler, Act.onDisk, sent, id_eq]
  rw [Pipeline.dispatch, first]
  rfl

private theorem no_objects_decoded :
    Artifact.decode? noObjectsArtifact.encode = some noObjectsArtifact ∧
      Codec.readResponse? noObjectsArtifact.payload = some (noObjects, []) := by
  obtain ⟨header, value⟩ := no_objects_fits
  have whole := response_reads value []
  rw [List.append_nil] at whole
  exact ⟨decode_written header, whole⟩

/-- A result is in the cache that comes from another release than the one that is known. The compiler
that is asked for a new one is missing, so compiling fails; the old result is still found. -/
theorem stale_entry_survives : ∃ filled : Workspace,
    smallCache.getEntry? filled emptyRequest.digest = some ⟨noObjects, "0.4.6"⟩ ∧
      Failed ((deserted ⟨"c"⟩ (some "9.9.9")).compile ⟨"M.sol"⟩ ⟨"", false⟩ ⟨filled, ()⟩) ∧
      smallCache.getEntry? (worldOf ((deserted ⟨"c"⟩ (some "9.9.9")).compile ⟨"M.sol"⟩ ⟨"", false⟩
        ⟨filled, ()⟩)).workspace emptyRequest.digest = some ⟨noObjects, "0.4.6"⟩ := by
  obtain ⟨decoded, read⟩ := no_objects_decoded
  obtain ⟨filled, put, added⟩ := two_names_put emptyRequest.digest noObjects
  have held : smallCache.getEntry? filled emptyRequest.digest = some ⟨noObjects, "0.4.6"⟩ :=
    two_names_entry added decoded read
  have placed : Placed (deserted ⟨"c"⟩ (some "9.9.9")).cache ["c"]
      (⟨filled, ()⟩ : World Unit).workspace := (put_effect two_names_placed put).1
  have made : (deserted ⟨"c"⟩ (some "9.9.9")).prepared filled ⟨"M.sol"⟩ ⟨"", false⟩ = .ok _ :=
    two_names_prepared_after rfl added (by simp)
  have stale : (deserted ⟨"c"⟩ (some "9.9.9")).trusts ⟨noObjects, "0.4.6"⟩ = false := by
    decide +kernel
  have missed : (deserted ⟨"c"⟩ (some "9.9.9")).cached? filled emptyRequest = none := by
    have held : (deserted ⟨"c"⟩ (some "9.9.9")).cache.getEntry? filled emptyRequest.digest =
        some ⟨noObjects, "0.4.6"⟩ := held
    rw [Pipeline.cached?, held, Option.filter_some, if_neg (by simp [stale])]
    rfl
  obtain ⟨error, left, sent⟩ := absent_fails ⟨"c"⟩ emptyRequest filled
  have failed : Failed ((deserted ⟨"c"⟩ (some "9.9.9")).compile ⟨"M.sol"⟩ ⟨"", false⟩
      ⟨filled, ()⟩) := by
    rw [compile_of_no_verdict ⟨filled, ()⟩ made missed (deserted_dispatch _ sent)]
    trivial
  refine ⟨filled, held, failed, ?_⟩
  have tame := deserted_tame ⟨"c"⟩ (some "9.9.9") ["c"]
  exact (failure_keeps_entries tame placed .whole failed emptyRequest.digest).1 _ held

section Detour

/-- The result is not found while the directory on the way is missing, and is found once it is there. -/
private theorem result_uncovered (digest : Digest) :
    detourCache.getEntry? (buried digest) digest = none ∧
      detourCache.getEntry? { buried digest with files := dugOut digest } digest =
        some ⟨noObjects, "0.4.6"⟩ := by
  obtain ⟨hidden, uncovered⟩ := artifact_uncovered digest
  exact ⟨by rw [Cache.getEntry?, hidden]; rfl, entry_of_artifact uncovered no_objects_decoded.2⟩

/-- A compilation fails when it makes the directory for the sources, in the place of which there is a
file. It has made the directory on the way to the root of the cache by then, so the result that is
there, but was not found before, is found after it. -/
theorem failure_uncovers_entry :
    detourCache.getEntry? (buried emptyRequest.digest) emptyRequest.digest = none ∧
      ∃ error after, (deserted detourCache.root none).compile ⟨"M.sol"⟩ ⟨"", false⟩
          ⟨buried emptyRequest.digest, ()⟩ = .error error after ∧
        detourCache.getEntry? after.workspace emptyRequest.digest =
          some ⟨noObjects, "0.4.6"⟩ := by
  obtain ⟨hidden, uncovered⟩ := result_uncovered emptyRequest.digest
  have made : (deserted detourCache.root none).prepared (buried emptyRequest.digest) ⟨"M.sol"⟩
      ⟨"", false⟩ = .ok ⟨emptyRequest, Source.Names.empty.insert emptyName ⟨"M.sol"⟩⟩ := by
    refine prepared_empty false rfl ?_ (by decide) (by decide)
    generalize emptyRequest.digest = digest
    simp [buried, FileTree.get?]
  have missed : (deserted detourCache.root none).cached? (buried emptyRequest.digest)
      emptyRequest = none := by
    have hidden : (deserted detourCache.root none).cache.getEntry? (buried emptyRequest.digest)
        emptyRequest.digest = none := hidden
    rw [Pipeline.cached?, hidden]
    rfl
  have sent : (absentCompiler detourCache.root).send emptyRequest (buried emptyRequest.digest) =
      .error (.materialize (detourCache.sources emptyRequest.digest) .exists)
        { buried emptyRequest.digest with files := dugOut emptyRequest.digest } := by
    have making := directories_unmade (DispatchError.materialize
      (detourCache.sources emptyRequest.digest)) (sources_blocked emptyRequest.digest)
    exact bind_of_error (bind_of_error making _) _
  exact ⟨hidden, _, _, compile_of_no_verdict ⟨buried emptyRequest.digest, ()⟩ made missed
    (deserted_dispatch none sent), uncovered⟩

end Detour

end Examples

end ContractBuild.FailedCompiles
