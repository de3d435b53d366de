import ContractBuild.Compiler.Scripted
import ContractBuild.Proofs.ArtifactFile
import ContractBuild.Proofs.CacheTransparency
import ContractBuild.Proofs.Rejections

/-! When a compilation calls a compiler. Its compilers note their calls, and nothing else is
different; so what is noted is exactly what the compilation calls. Every result that runs of
pipelines leave in a cache is an accepted response under the version that it reports, so after a
compilation the versions decide whether the next one calls a compiler at all. -/
namespace ContractBuild.CompilerCalls
open ArtifactFile CacheChange CachePlace CacheRoom CacheTransparency CompileSteps PathWalk Rejections
open ShownNames SourcesSpared WrittenFiles

variable {σ : Type}

section Notes

/-- The two places that a pipeline has for compilers. -/
inductive Role where
  | first
  | standIn
  deriving DecidableEq

/-- A call of a compiler, and what it answered. -/
structure Call where
  role : Role
  request : Request
  answer : Except DispatchError CompilerOutput

/-- A world in which calls are noted. -/
def withCalls (calls : List Call) (world : World σ) : World (σ × List Call) :=
  ⟨world.workspace, (world.outside, calls)⟩

/-- A compiler that notes its calls, and otherwise does what it did. -/
def noting (role : Role) (compiler : Compiler σ) : Compiler (σ × List Call) where
  send request := fun world =>
    let result := compiler.send request ⟨world.workspace, world.outside.1⟩
    resultOf (withCalls (world.outside.2 ++ [⟨role, request, answerOf result⟩]) (worldOf result))
      (answerOf result)
  description := compiler.description

/-- A pipeline whose compilers note their calls. -/
def notingPipeline (pipeline : Pipeline σ) : Pipeline (σ × List Call) where
  roots := pipeline.roots
  primary := noting .first pipeline.primary
  fallback := pipeline.fallback.map (noting .standIn)
  reader := pipeline.reader
  cache := pipeline.cache

/-- The calls that a compilation makes, in order. -/
def callsOf (pipeline : Pipeline σ) (entry : Path) (options : Options) (world : World σ) :
    List Call :=
  (worldOf ((notingPipeline pipeline).compile entry options (withCalls [] world))).outside.2

/-- A compilation with noted calls is the compilation, and these are its calls. -/
def Notes (pipeline : Pipeline σ) (entry : Path) (options : Options) (world : World σ)
    (calls : List Call) : Prop :=
  ∀ before, (notingPipeline pipeline).compile entry options (withCalls before world) =
    resultOf (withCalls (before ++ calls) (worldOf (pipeline.compile entry options world)))
      (answerOf (pipeline.compile entry options world))

variable {pipeline : Pipeline σ} {entry : Path} {options : Options} {world after : World σ}
  {prepared : Prepared} {request : Request} {calls : List Call}
  {last : Except DispatchError CompilerOutput}

theorem calls_of_notes (notes : Notes pipeline entry options world calls) :
    callsOf pipeline entry options world = calls := by
  rw [callsOf, notes []]
  cases answerOf (pipeline.compile entry options world) <;> rfl

end Notes

section Dispatch
variable {pipeline : Pipeline σ} {entry : Path} {options : Options} {world after : World σ}
  {prepared : Prepared} {request : Request} {calls : List Call}
  {last : Except DispatchError CompilerOutput}

/-- How the compilers of a pipeline are asked: the first one once, and if it is unavailable and there
is one that stands in, that one once. -/
inductive Asked (pipeline : Pipeline σ) (request : Request) (world : World σ) :
    List Call → Except DispatchError CompilerOutput → World σ → Prop where
  | first {answer : Except DispatchError CompilerOutput} {after : World σ}
      (sent : pipeline.primary.send request world = resultOf after answer)
      (settled : ∀ error, answer = .error error → error.isUnavailable = true →
        pipeline.fallback = none) :
      Asked pipeline request world [⟨.first, request, answer⟩] answer after
  | standIn {error : DispatchError} {answer : Except DispatchError CompilerOutput}
      {second : Compiler σ} {after last : World σ}
      (sent : pipeline.primary.send request world = .error error after)
      (unavailable : error.isUnavailable = true) (set : pipeline.fallback = some second)
      (sent' : second.send request after = resultOf last answer) :
      Asked pipeline request world
        [⟨.first, request, .error error⟩, ⟨.standIn, request, answer⟩] answer last

theorem answer_of_result {α ε : Type} {answer : Except ε α} :
    answerOf (resultOf after answer) = answer ∧ worldOf (resultOf after answer) = after := by
  cases answer <;> exact ⟨rfl, rfl⟩

theorem noting_sends {role : Role} {compiler : Compiler σ}
    {answer : Except DispatchError CompilerOutput}
    (sent : compiler.send request world = resultOf after answer) (before : List Call) :
    (noting role compiler).send request (withCalls before world) =
      resultOf (withCalls (before ++ [⟨role, request, answer⟩]) after) answer := by
  obtain ⟨answered, left⟩ : answerOf (resultOf after answer) = answer ∧
      worldOf (resultOf after answer) = after := answer_of_result
  have same : compiler.send request ⟨(withCalls before world).workspace,
      (withCalls before world).outside.1⟩ = resultOf after answer := sent
  simp only [noting, same, answered, left]
  rfl

theorem dispatch_of_first {answer : Except DispatchError CompilerOutput}
    (sent : pipeline.primary.send request world = resultOf after answer)
    (settled : ∀ error, answer = .error error → error.isUnavailable = true →
      pipeline.fallback = none) : pipeline.dispatch request world = resultOf after answer := by
  unfold Pipeline.dispatch
  rw [sent]
  cases answer with
  | ok output => rfl
  | error error =>
    simp only [resultOf]
    split
    · rename_i second set
      have available : ¬ error.isUnavailable = true := by
        intro unavailable
        rw [settled error rfl unavailable] at set
        cases set
      rw [if_neg available]
    · rfl

theorem dispatch_of_stand_in {error : DispatchError} {second : Compiler σ}
    (sent : pipeline.primary.send request world = .error error after)
    (unavailable : error.isUnavailable = true) (set : pipeline.fallback = some second) :
    pipeline.dispatch request world = second.send request after := by
  simp only [Pipeline.dispatch, sent, set, unavailable, ↓reduceIte]

/-- The last answer is that of the pipeline. -/
theorem dispatch_of_asked (asked : Asked pipeline request world calls last after) :
    pipeline.dispatch request world = resultOf after last := by
  cases asked with
  | first sent settled => exact dispatch_of_first sent settled
  | standIn sent unavailable set sent' => rw [dispatch_of_stand_in sent unavailable set, sent']

/-- The calls are what is noted. -/
theorem noting_dispatch (asked : Asked pipeline request world calls last after)
    (before : List Call) :
    (notingPipeline pipeline).dispatch request (withCalls before world) =
      resultOf (withCalls (before ++ calls) after) last := by
  cases asked with
  | first sent settled =>
    refine dispatch_of_first (noting_sends sent before) fun error same unavailable => ?_
    simp only [notingPipeline, settled error same unavailable, Option.map_none]
  | @standIn error answer second middle last sent unavailable set sent' =>
    have noted : (noting .first pipeline.primary).send request (withCalls before world) =
        resultOf (withCalls (before ++ [⟨.first, request, .error error⟩]) middle) (.error error) :=
      noting_sends sent before
    have set' : (notingPipeline pipeline).fallback = some (noting .standIn second) := by
      simp only [notingPipeline, set, Option.map_some]
    rw [dispatch_of_stand_in noted unavailable set', noting_sends sent', List.append_assoc]
    rfl

/-- For every request the compilers are asked in one of the two ways. -/
theorem asked_exists (pipeline : Pipeline σ) (request : Request) (world : World σ) :
    ∃ calls last after, Asked pipeline request world calls last after := by
  have sent := result_of_answer (pipeline.primary.send request world)
  by_cases turned : ∃ error second, answerOf (pipeline.primary.send request world) = .error error ∧
      error.isUnavailable = true ∧ pipeline.fallback = some second
  · obtain ⟨error, second, answered, unavailable, set⟩ := turned
    rw [answered] at sent
    exact ⟨_, _, _, .standIn sent unavailable set (result_of_answer (second.send request _))⟩
  · refine ⟨_, _, _, .first sent fun error answered unavailable => ?_⟩
    by_contra set
    obtain ⟨second, set⟩ := Option.ne_none_iff_exists'.mp set
    exact turned ⟨error, second, answered, unavailable, set⟩

end Dispatch

section Compile
variable {pipeline : Pipeline σ} {entry : Path} {options : Options} {world after : World σ}
  {prepared : Prepared} {calls : List Call} {last : Except DispatchError CompilerOutput}

/-- What a compilation comes to that got its last answer in a world. -/
def outcome (pipeline : Pipeline σ) (prepared : Prepared)
    (last : Except DispatchError CompilerOutput) (after : World σ) :
    EStateM.Result PipelineError (World σ) Response :=
  match last with
  | .error error => .error (.dispatch error) after
  | .ok output =>
    match pipeline.reader.read output with
    | .error error => .error (.decode ⟨prepared.names.restore error.warning⟩) after
    | .ok response =>
      if response.isRejection then .ok (response.restore prepared.names) after
      else
        match pipeline.cache.put prepared.request.digest response response.version
            after.workspace with
        | .ok () kept => .ok (response.restore prepared.names) { after with workspace := kept }
        | .error cause left => .error (.cache cause) { after with workspace := left }

/-- The last answer decides what a compilation comes to that the cache has no answer for. -/
theorem compile_of_sent
    (made : pipeline.prepared world.workspace entry options = .ok prepared)
    (missed : pipeline.cached? world.workspace prepared.request = none)
    (sent : pipeline.dispatch prepared.request world = resultOf after last) :
    pipeline.compile entry options world = outcome pipeline prepared last after := by
  cases last with
  | error error => exact compile_of_no_verdict world made missed sent
  | ok output =>
    simp only [outcome]
    cases read : pipeline.reader.read output with
    | error error => exact compile_of_unreadable world made missed sent read
    | ok response =>
      dsimp only
      split
      · rename_i rejected
        exact compile_of_rejection world made missed sent read rejected
      · rename_i accepted
        have accepted : response.isRejection = false := by simpa using accepted
        split
        · rename_i kept put
          exact compile_of_put world made missed sent read accepted put
        · rename_i cause left put
          exact compile_of_failed_put world made missed sent read accepted put

/-- Noted calls make no difference to it. -/
theorem outcome_noting (pipeline : Pipeline σ) (prepared : Prepared)
    (last : Except DispatchError CompilerOutput) (after : World σ) (calls : List Call) :
    outcome (notingPipeline pipeline) prepared last (withCalls calls after) =
      resultOf (withCalls calls (worldOf (outcome pipeline prepared last after)))
        (answerOf (outcome pipeline prepared last after)) := by
  unfold outcome
  cases last with
  | error error => rfl
  | ok output =>
    simp only [notingPipeline, withCalls]
    cases pipeline.reader.read output with
    | error error => rfl
    | ok response =>
      dsimp only
      split
      · rfl
      · cases pipeline.cache.put prepared.request.digest response response.version
          after.workspace <;> rfl

theorem notes_of_unprepared {error : PipelineError}
    (failed : pipeline.prepared world.workspace entry options = .error error) :
    Notes pipeline entry options world [] := by
  intro before
  rw [compile_of_unprepared world failed, List.append_nil]
  have failed' : (notingPipeline pipeline).prepared (withCalls before world).workspace entry options =
      .error error := failed
  exact compile_of_unprepared _ failed'

theorem notes_of_hit {response : Response}
    (made : pipeline.prepared world.workspace entry options = .ok prepared)
    (hit : pipeline.cached? world.workspace prepared.request = some response) :
    Notes pipeline entry options world [] := by
  intro before
  rw [compile_of_hit world made hit, List.append_nil]
  have made' : (notingPipeline pipeline).prepared (withCalls before world).workspace entry options =
      .ok prepared := made
  exact compile_of_hit _ made' hit

theorem notes_of_missed
    (made : pipeline.prepared world.workspace entry options = .ok prepared)
    (missed : pipeline.cached? world.workspace prepared.request = none)
    (asked : Asked pipeline prepared.request world calls last after) :
    Notes pipeline entry options world calls := by
  intro before
  rw [compile_of_sent made missed (dispatch_of_asked asked), ← outcome_noting]
  have made' : (notingPipeline pipeline).prepared (withCalls before world).workspace entry options =
      .ok prepared := made
  exact compile_of_sent made' missed (noting_dispatch asked before)

/-- A compilation with noted calls is the compilation. -/
theorem notes_calls (pipeline : Pipeline σ) (entry : Path) (options : Options) (world : World σ) :
    Notes pipeline entry options world (callsOf pipeline entry options world) := by
  have noted : ∃ calls, Notes pipeline entry options world calls := by
    cases made : pipeline.prepared world.workspace entry options with
    | error error => exact ⟨_, notes_of_unprepared made⟩
    | ok prepared =>
      cases held : pipeline.cached? world.workspace prepared.request with
      | some response => exact ⟨_, notes_of_hit made held⟩
      | none =>
        obtain ⟨calls, last, after, asked⟩ := asked_exists pipeline prepared.request world
        exact ⟨calls, notes_of_missed made held asked⟩
  obtain ⟨calls, notes⟩ := noted
  rw [calls_of_notes notes]
  exact notes

end Compile

section Counts
variable {pipeline : Pipeline σ} {entry : Path} {options : Options} {world after : World σ}
  {prepared : Prepared} {calls : List Call} {last : Except DispatchError CompilerOutput}
  {w : Workspace} {request : Request}

/-- An entry of the cache may be used for a request: it is kept under its digest, and comes from the
same release as the compiler, if that is known. -/
structure Usable (pipeline : Pipeline σ) (w : Workspace) (request : Request) (entry : CacheEntry) :
    Prop where
  held : pipeline.cache.getEntry? w request.digest = some entry
  trusted : ∀ version, pipeline.reader.assumedVersion = some version →
    sameCompiler entry.compilerVersion version = true

theorem cached_iff {response : Response} : pipeline.cached? w request = some response ↔
    ∃ entry, Usable pipeline w request entry ∧ entry.value = response := by
  have trusts : ∀ entry : CacheEntry, pipeline.trusts entry = true ↔
      ∀ version, pipeline.reader.assumedVersion = some version →
        sameCompiler entry.compilerVersion version = true := by
    intro entry
    cases known : pipeline.reader.assumedVersion <;> simp [Pipeline.trusts, known]
  simp only [Pipeline.cached?, Option.map_eq_some_iff, Option.filter_eq_some_iff]
  constructor
  · rintro ⟨entry, ⟨held, trusted⟩, rfl⟩
    exact ⟨entry, ⟨held, (trusts entry).mp trusted⟩, rfl⟩
  · rintro ⟨entry, ⟨held, trusted⟩, rfl⟩
    exact ⟨entry, ⟨held, (trusts entry).mpr trusted⟩, rfl⟩

theorem cached_none_iff : pipeline.cached? w request = none ↔
    ∀ entry, ¬ Usable pipeline w request entry := by
  rw [Option.eq_none_iff_forall_ne_some]
  constructor
  · exact fun nothing entry usable => nothing entry.value (cached_iff.mpr ⟨entry, usable, rfl⟩)
  · rintro nothing response hit
    obtain ⟨entry, usable, -⟩ := cached_iff.mp hit
    exact nothing entry usable

theorem asked_some (asked : Asked pipeline request world calls last after) :
    ∃ call ∈ calls, call.answer = last := by
  cases asked with
  | first => exact ⟨_, List.mem_singleton_self _, rfl⟩
  | standIn => exact ⟨_, List.mem_cons_of_mem _ (List.mem_singleton_self _), rfl⟩

/-- A compilation calls no compiler exactly if it can use an entry of the cache. -/
theorem no_calls_iff
    (made : pipeline.prepared world.workspace entry options = .ok prepared) :
    callsOf pipeline entry options world = [] ↔
      ∃ held, Usable pipeline world.workspace prepared.request held := by
  constructor
  · intro none
    by_contra nothing
    have missed := cached_none_iff.mpr fun held usable => nothing ⟨held, usable⟩
    obtain ⟨calls, last, after, asked⟩ := asked_exists pipeline prepared.request world
    obtain ⟨call, inside, -⟩ := asked_some asked
    rw [calls_of_notes (notes_of_missed made missed asked)] at none
    rw [none] at inside
    cases inside
  · rintro ⟨held, usable⟩
    exact calls_of_notes (notes_of_hit made (cached_iff.mpr ⟨held, usable, rfl⟩))

end Counts

section Failures
variable {cache : Cache} {place : Location} {w after : Workspace} {digest : Digest}

private theorem temporary_aside (digest : Digest) {temporary : String} (plain : Plain temporary)
    (different : temporary ≠ Cache.resultName) : Aside [digest.toHex, temporary] where
  nonempty := by simp
  plain := artifact_plain digest plain
  apart other := by simp [different]

private theorem write_failed_spares {ε : Type} {fail : Path → FileError → ε} {content : Bytes}
    {error : ε} (placed : Placed cache place w)
    (failed : Disk.writeWhole fail (cache.directory digest) Cache.resultName content w =
      .error error after) : Spares cache place w after := by
  rcases error_of_bind failed with naming | ⟨temporary, issued, naming, failed⟩
  · cases naming
  obtain ⟨rfl, rfl⟩ := EStateM.Result.ok.inj naming
  obtain ⟨plain, different⟩ := temporary_plain result_plain w.process w.issued
  have issued : Spares cache place w { w with issued := w.issued + 1 } :=
    ⟨placed_of_same_links _ placed (fun _ _ => Iff.rfl) rfl, fun _ _ there => there⟩
  generalize s!".{Cache.resultName}.{w.process}.{w.issued}.tmp" = temporary at *
  -- The temporary file is written beside the results.
  have beside : Spares cache place { w with issued := w.issued + 1 }
      (leftBy (Disk.write (fail ((cache.directory digest).join ⟨temporary⟩))
        ((cache.directory digest).join ⟨temporary⟩) content { w with issued := w.issued + 1 })) :=
    sparing_write (temporary_aside digest plain different) _ content _ issued.placed
  rcases error_of_bind failed with writing | ⟨⟨⟩, filled, writing, failed⟩
  · rw [change_failed writing]
    exact issued
  rcases error_of_bind failed with moving | ⟨⟨⟩, moved, -, ended⟩
  · rw [change_failed moving]
    rw [writing] at beside
    exact spares_trans issued beside
  · cases ended

/-- A put that fails spares the cache: it fails before anything is in the place of a result. -/
theorem put_failed_spares (placed : Placed cache place w) {response : Response} {version : String}
    {cause : CacheError} (failed : cache.put digest response version w = .error cause after) :
    Spares cache place w after := by
  rcases error_of_bind failed with failed | ⟨path, last, -, ended⟩
  · have making : Spares cache place w (leftBy (Disk.makeDirectories
        (CacheError.mk (cache.directory digest)) (cache.directory digest) w)) :=
      sparing_make_directories _ _ w placed
    rcases error_of_bind failed with failed | ⟨⟨⟩, made, done, failed⟩
    · rw [failed] at making
      exact making
    · rw [done] at making
      exact spares_trans making (write_failed_spares making.placed failed)
  · cases ended

end Failures

section Runs
variable {cache : Cache} {place : Location} {pipeline : Pipeline σ} {entry : Path}
  {options : Options} {start world after : World σ} {prepared : Prepared} {calls : List Call}
  {last : Except DispatchError CompilerOutput} {w w' : Workspace}

/-- The compilers of a pipeline spare its cache. -/
structure ConsideratePipeline (pipeline : Pipeline σ) (place : Location) : Prop where
  first : Considerate pipeline.cache place pipeline.primary
  standIn : ∀ second, pipeline.fallback = some second → Considerate pipeline.cache place second

theorem service_considerate (service : CompilerService) (cache : Cache) (place : Location) :
    Considerate cache place (service.toCompiler : Compiler σ) := by
  intro request _ world placed
  simp only [CompilerService.toCompiler]
  cases service.send request <;> exact spares_refl placed

theorem scripted_considerate (compiler : ScriptedCompiler σ) (cache : Cache) (place : Location) :
    Considerate cache place compiler.toCompiler := by
  intro request _ world placed
  simp only [ScriptedCompiler.toCompiler, ScriptedCompiler.send]
  split <;> exact spares_refl placed

/-- The compilers of a project's pipeline are considerate, with a service or without, if the program
of the installed compiler is harmless. -/
theorem project_considerate {host : Host} {config : Config} {project : Path}
    (harmless : Harmless (Pipeline.installedCompiler host config project) place) :
    ConsideratePipeline (Pipeline.ofConfig host config project : Pipeline σ) place := by
  have installed : Considerate ⟨config.scratchRoot project⟩ place
      ((Pipeline.installedCompiler host config project).toCompiler : Compiler σ) :=
    installed_considerate harmless
  unfold Pipeline.ofConfig
  cases config.remote with
  | none => exact ⟨installed, fun second set => by cases set⟩
  | some remote =>
    refine ⟨service_considerate _ _ _, fun second set => ?_⟩
    dsimp only at set
    split at set
    · obtain rfl := Option.some.inj set
      exact installed
    · cases set

/-- Asking considerate compilers spares the cache. -/
theorem asked_spares (considerate : ConsideratePipeline pipeline place) {request : Request}
    (plain : PlainFiles request) (placed : Placed pipeline.cache place world.workspace)
    (asked : Asked pipeline request world calls last after) :
    Spares pipeline.cache place world.workspace after.workspace := by
  have sparing : ∀ {compiler : Compiler σ} {world after : World σ}
      {answer : Except DispatchError CompilerOutput},
      Considerate pipeline.cache place compiler → Placed pipeline.cache place world.workspace →
      compiler.send request world = resultOf after answer →
      Spares pipeline.cache place world.workspace after.workspace := by
    intro compiler world after answer considerate placed sent
    have spares := considerate request plain world placed
    rwa [sent, answer_of_result.2] at spares
  cases asked with
  | first sent _ => exact sparing considerate.first placed sent
  | @standIn error _ second middle _ sent _ set sent' =>
    have sent : pipeline.primary.send request world = resultOf middle (.error error) := sent
    have spares := sparing considerate.first placed sent
    exact spares_trans spares (sparing (considerate.standIn second set) spares.placed sent')

/-- Every result in a cache is an accepted response, kept under the version that it reports. -/
structure Tagged (cache : Cache) (place : Location) (w : Workspace) : Prop where
  placed : Placed cache place w
  kept : ∀ digest content, resultAt? place w digest = some content →
    ∃ response, content = keptForm response response.version ∧ response.isRejection = false

theorem tagged_of_spares (tagged : Tagged cache place w) (spares : Spares cache place w w') :
    Tagged cache place w' where
  placed := spares.placed
  kept digest content there := tagged.kept digest content (spares.results digest content there)

theorem tagged_of_put (tagged : Tagged cache place w) {digest : Digest} {response : Response}
    {answer : Unit} (accepted : response.isRejection = false)
    (done : cache.put digest response response.version w = .ok answer w') :
    Tagged cache place w' := by
  obtain ⟨placed, kept, others⟩ := put_effect tagged.placed done
  refine ⟨placed, fun other content there => ?_⟩
  by_cases same : other = digest
  · subst same
    exact ⟨response, Option.some.inj (there.symm.trans kept), accepted⟩
  · exact tagged.kept other content (others other content same there)

/-- A compilation leaves tagged results, whatever it comes to. -/
theorem tagged_of_compile (considerate : ConsideratePipeline pipeline place)
    (tagged : Tagged pipeline.cache place world.workspace) :
    Tagged pipeline.cache place (worldOf (pipeline.compile entry options world)).workspace := by
  cases made : pipeline.prepared world.workspace entry options with
  | error error =>
    rw [compile_of_unprepared world made]
    exact tagged
  | ok prepared =>
    cases held : pipeline.cached? world.workspace prepared.request with
    | some response =>
      rw [compile_of_hit world made held]
      exact tagged
    | none =>
      obtain ⟨calls, last, after, asked⟩ := asked_exists pipeline prepared.request world
      have plain : PlainFiles prepared.request := prepared_plain (prepare_of_prepared made)
      have tagged := tagged_of_spares tagged (asked_spares considerate plain tagged.placed asked)
      rw [compile_of_sent made held (dispatch_of_asked asked)]
      unfold outcome
      split
      · exact tagged
      · split
        · exact tagged
        · split
          · exact tagged
          · rename_i accepted
            split
            · rename_i kept done
              exact tagged_of_put tagged (by simpa using accepted) done
            · rename_i cause left failed
              exact tagged_of_spares tagged (put_failed_spares tagged.placed failed)

/-- What may happen to a cache: pipelines that share it compile and clear it, and files outside it
are edited. -/
inductive Step (cache : Cache) (place : Location) : World σ → World σ → Prop where
  | compile {pipeline : Pipeline σ} {world : World σ} (entry : Path) (options : Options)
      (shares : pipeline.cache = cache) (considerate : ConsideratePipeline pipeline place) :
      Step cache place world (worldOf (pipeline.compile entry options world))
  | clear {pipeline : Pipeline σ} {world : World σ} (shares : pipeline.cache = cache) :
      Step cache place world (worldOf (pipeline.clearCache world))
  | edit {world edited : World σ}
      (apart : Outside cache place world.workspace edited.workspace) :
      Step cache place world edited

/-- A world that runs of pipelines come to from a cache in which nothing is kept. -/
structure Reached (cache : Cache) (place : Location) (start world : World σ) : Prop where
  placed : Placed cache place start.workspace
  empty : ∀ location, place <+: location → location ≠ place →
    start.workspace.files.get? location = none
  run : Relation.ReflTransGen (Step cache place) start world

theorem tagged_of_step (tagged : Tagged cache place world.workspace)
    (step : Step cache place world after) : Tagged cache place after.workspace := by
  cases step with
  | compile entry options shares considerate =>
    subst shares
    exact tagged_of_compile considerate tagged
  | clear shares =>
    subst shares
    exact tagged_of_spares tagged (clear_cache_spares tagged.placed)
  | edit apart => exact tagged_of_spares tagged (outside_spares apart)

theorem tagged_of_reached (reached : Reached cache place start world) :
    Tagged cache place world.workspace := by
  obtain ⟨placed, empty, run⟩ := reached
  induction run with
  | refl =>
    refine ⟨placed, fun digest content there => ?_⟩
    obtain ⟨executable, there⟩ := file_of_content there
    rw [empty _ (artifact_within place digest _) (by simp [artifactPlace])] at there
    cases there
  | tail _ step ih => exact tagged_of_step ih step

end Runs

section Repeats
variable {cache : Cache} {place : Location} {pipeline : Pipeline σ} {entry : Path}
  {options : Options} {world after : World σ} {prepared : Prepared} {response : Response}

/-- Two version texts name the same release; where one of them names none, they are the same
text. -/
def SameRelease (a b : String) : Prop :=
  (∃ release, Release.ofVersion? a = some release ∧ Release.ofVersion? b = some release) ∨
    ((Release.ofVersion? a = none ∨ Release.ofVersion? b = none) ∧ a = b)

theorem same_compiler_iff (a b : String) : sameCompiler a b = true ↔ SameRelease a b := by
  unfold sameCompiler SameRelease
  cases Release.ofVersion? a <;> cases Release.ofVersion? b <;> simp [eq_comm]

/-- What the compilers answer in a compilation is read as responses of sizes that can be written. -/
def Sized (pipeline : Pipeline σ) (entry : Path) (options : Options) (world : World σ) : Prop :=
  ∀ call ∈ callsOf pipeline entry options world, ∀ output kept, call.answer = .ok output →
    pipeline.reader.read output = .ok kept →
      ResponseFits kept ∧ HeaderFits (responseArtifact kept kept.version)

/-- After a compilation that answered an accepted response, the cache holds a response of its
version, under this version. -/
theorem held_after (considerate : ConsideratePipeline pipeline place)
    (tagged : Tagged pipeline.cache place world.workspace)
    (solid : Solid world.workspace.files world.workspace.here)
    (made : pipeline.prepared world.workspace entry options = .ok prepared)
    (sized : Sized pipeline entry options world)
    (compiled : pipeline.compile entry options world = .ok response after)
    (accepted : response.error = "") :
    ∃ value, pipeline.cache.getEntry? after.workspace prepared.request.digest =
      some ⟨value, response.version⟩ := by
  cases held : pipeline.cached? world.workspace prepared.request with
  | some kept =>
    rw [compile_of_hit world made held] at compiled
    obtain ⟨rfl, rfl⟩ := EStateM.Result.ok.inj compiled
    obtain ⟨found, usable, rfl⟩ := cached_iff.mp held
    obtain ⟨content, -, -, -, there, -⟩ := entry_of_result tagged.placed usable.held
    obtain ⟨value, rfl, -⟩ := tagged.kept _ _ there
    obtain rfl := entry_of_kept tagged.placed there usable.held
    exact ⟨value, usable.held⟩
  | none =>
    obtain ⟨calls, last, middle, asked⟩ := asked_exists pipeline prepared.request world
    obtain ⟨call, inside, answered⟩ := asked_some asked
    rw [← calls_of_notes (notes_of_missed made held asked)] at inside
    have visible : Visible prepared.names := prepared_visible solid (prepare_of_prepared made)
    have plain : PlainFiles prepared.request := prepared_plain (prepare_of_prepared made)
    have spares := asked_spares considerate plain tagged.placed asked
    rw [compile_of_sent made held (dispatch_of_asked asked)] at compiled
    unfold outcome at compiled
    split at compiled
    · cases compiled
    · rename_i output
      split at compiled
      · cases compiled
      · rename_i kept read
        obtain ⟨fits, room⟩ := sized call inside output kept answered read
        split at compiled
        · rename_i rejected
          obtain ⟨rfl, -⟩ := EStateM.Result.ok.inj compiled
          have silent : kept.error = "" := (restore_eq_empty_iff visible kept.error).mp accepted
          simp [Response.isRejection, silent] at rejected
        · split at compiled
          · rename_i filled done
            obtain ⟨rfl, rfl⟩ := EStateM.Result.ok.inj compiled
            exact ⟨kept, put_entry_found fits room
              (unlinked_of_placed spares.placed result_plain _) done⟩
          · cases compiled

/-- Exactly when a compiler is called. A compilation whose request cannot be made calls none, and one
that can use an entry of the cache calls none. Every other one calls the first compiler once, and the
one that stands in, if there is one, once if the first is unavailable; the last answer decides. After
a compilation that answered an accepted response, in a world that runs of pipelines come to, the same
request calls no compiler exactly if the version of the compiler is not known, or names the release
that the response reports. The path of the scratch root is not a link itself, and no links are below it;
links on the way to it are no matter. -/
theorem compiler_called_iff (pipeline : Pipeline σ) (entry : Path) (options : Options)
    (world : World σ) :
    Notes pipeline entry options world (callsOf pipeline entry options world) ∧
      (∀ error, pipeline.prepared world.workspace entry options = .error error →
        callsOf pipeline entry options world = []) ∧
      (∀ prepared, pipeline.prepared world.workspace entry options = .ok prepared →
        (∀ held, Usable pipeline world.workspace prepared.request held →
            callsOf pipeline entry options world = []) ∧
          ((∀ held, ¬ Usable pipeline world.workspace prepared.request held) →
            ∃ calls last after, callsOf pipeline entry options world = calls ∧
              Asked pipeline prepared.request world calls last after ∧
              pipeline.compile entry options world = outcome pipeline prepared last after)) ∧
      ∀ place start response after, Reached pipeline.cache place start world →
        ConsideratePipeline pipeline place →
        Solid world.workspace.files world.workspace.here →
        pipeline.compile entry options world = .ok response after → response.error = "" →
        Sized pipeline entry options world →
        (pipeline.prepared after.workspace entry options).map Prepared.request =
          (pipeline.prepared world.workspace entry options).map Prepared.request →
        (callsOf pipeline entry options after = [] ↔
          ∀ version, pipeline.reader.assumedVersion = some version →
            SameRelease response.version version) := by
  refine ⟨notes_calls pipeline entry options world,
    fun error failed => calls_of_notes (notes_of_unprepared failed), fun prepared made =>
      ⟨fun held usable => (no_calls_iff made).mpr ⟨held, usable⟩, fun nothing => ?_⟩, ?_⟩
  · have missed := cached_none_iff.mpr nothing
    obtain ⟨calls, last, after, asked⟩ := asked_exists pipeline prepared.request world
    exact ⟨calls, last, after, calls_of_notes (notes_of_missed made missed asked), asked,
      compile_of_sent made missed (dispatch_of_asked asked)⟩
  · intro place start response after reached considerate solid compiled accepted sized unchanged
    have tagged := tagged_of_reached reached
    cases made : pipeline.prepared world.workspace entry options with
    | error error =>
      rw [compile_of_unprepared world made] at compiled
      cases compiled
    | ok prepared =>
      obtain ⟨value, held⟩ := held_after considerate tagged solid made sized compiled accepted
      rw [made] at unchanged
      cases again : pipeline.prepared after.workspace entry options with
      | error error =>
        rw [again] at unchanged
        cases unchanged
      | ok prepared' =>
        rw [again] at unchanged
        have same : prepared'.request = prepared.request := Except.ok.inj unchanged
        simp only [no_calls_iff again, ← same_compiler_iff]
        rw [← same] at held
        constructor
        · rintro ⟨kept, usable⟩
          obtain rfl := Option.some.inj (usable.held.symm.trans held)
          exact usable.trusted
        · exact fun trusted => ⟨_, held, trusted⟩

end Repeats

section Examples

theorem remarking_considerate : ConsideratePipeline remarkingPipeline ["c"] where
  first _ _ _ placed := spares_refl placed
  standIn _ set := by cases set

/-- The answer of the remarking compiler to the request for an empty file. -/
def emptyRemark : CompilerOutput :=
  ⟨emptyName ++ ": unused\n\x7b\"contracts\":\x7b\x7d\x7d", false⟩

/-- A file is compiled by one call of the first compiler, and compiling it again calls none, since no
version is assumed. -/
theorem second_compile_calls_none :
    ∃ after : Workspace,
      remarkingPipeline.compile ⟨"M.sol"⟩ ⟨"", false⟩ ⟨twoNames, 0⟩ =
        .ok (shown "M.sol") ⟨after, 1⟩ ∧
      callsOf remarkingPipeline ⟨"M.sol"⟩ ⟨"", false⟩ ⟨twoNames, 0⟩ =
        [⟨.first, emptyRequest, .ok emptyRemark⟩] ∧
      callsOf remarkingPipeline ⟨"M.sol"⟩ ⟨"", false⟩ (⟨after, 1⟩ : World Nat) = [] := by
  obtain ⟨after, filled, first⟩ := first_compile
  have reached : Reached remarkingPipeline.cache ["c"] (⟨twoNames, 0⟩ : World Nat) ⟨twoNames, 0⟩ :=
    ⟨two_names_placed, two_names_bare, .refl⟩
  obtain ⟨-, -, called, repeated⟩ :=
    compiler_called_iff remarkingPipeline ⟨"M.sol"⟩ ⟨"", false⟩ ⟨twoNames, 0⟩
  have made : remarkingPipeline.prepared twoNames ⟨"M.sol"⟩ ⟨"", false⟩ =
      .ok ⟨emptyRequest, Source.Names.empty.insert emptyName ⟨"M.sol"⟩⟩ := two_names_prepared rfl
  have made' : remarkingPipeline.prepared after ⟨"M.sol"⟩ ⟨"", false⟩ =
      .ok ⟨emptyRequest, Source.Names.empty.insert emptyName ⟨"M.sol"⟩⟩ :=
    two_names_prepared_after rfl filled (by simp)
  have unheld : remarkingPipeline.cached? twoNames emptyRequest = none :=
    two_names_missed rfl emptyRequest
  have missed := cached_none_iff.mp unheld
  obtain ⟨calls, last, middle, noted, asked, -⟩ := (called _ made).2 missed
  have sent : remarkingPipeline.primary.send emptyRequest ⟨twoNames, 0⟩ =
      resultOf ⟨twoNames, 1⟩ (.ok emptyRemark) := rfl
  have once : calls = [⟨.first, emptyRequest, .ok emptyRemark⟩] := by
    cases asked with
    | first sent' _ =>
      have same := congrArg answerOf (sent'.symm.trans sent)
      rw [answer_of_result.1, answer_of_result.1] at same
      rw [same]
    | standIn sent' => cases sent'.symm.trans sent
  rw [once] at noted
  refine ⟨after, first, noted, ?_⟩
  refine (repeated _ _ _ _ reached remarking_considerate two_names_solid first rfl ?_
    (by rw [made, made'])).mpr fun version known => by cases known
  intro call inside output kept answered read
  rw [noted, List.mem_singleton] at inside
  subst inside
  obtain rfl := Except.ok.inj answered
  obtain rfl := Except.ok.inj (remark_read.symm.trans read)
  decide +kernel

end Examples

end ContractBuild.CompilerCalls
