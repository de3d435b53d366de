import ContractBuild.Pipeline
import ContractBuild.Proofs.CompileSteps
import ContractBuild.Proofs.RequestIdentity
import ContractBuild.Proofs.SourcesSpared

/-! A pipeline with a cache answers as one without. Whatever is kept under a digest is what the
request with that digest comes to before any path is put into it, and nothing that happens between
two compilations makes it anything else; so each compilation, of whatever project, answers what
dispatching its own request and restoring its own paths would answer. -/
namespace ContractBuild.CacheTransparency
open CacheChange CachePlace CacheRoom CompileSteps PathWalk RequestIdentity SourcesSpared

variable {σ : Type}

section Reference

/-- What a compiler answers to each request. -/
abbrev Verdict := Request → Except DispatchError CompilerOutput

/-- An answer together with the world after it. -/
def resultOf {α ε : Type} (world : World σ) : Except ε α → EStateM.Result ε (World σ) α
  | .ok value => .ok value world
  | .error error => .error error world

/-- What an operation answers. -/
def answerOf {α ε : Type} : EStateM.Result ε (World σ) α → Except ε α
  | .ok value _ => .ok value
  | .error error _ => .error error

/-- The world that an operation leaves. -/
def worldOf {α ε : Type} : EStateM.Result ε (World σ) α → World σ
  | .ok _ world => world
  | .error _ world => world

/-- The answers of a compiler to the requests met depend on the request alone, and what it does to
files spares the cache. -/
def Steady (cache : Cache) (place : Location) (met : Set Request) (compiler : Compiler σ)
    (verdict : Verdict) : Prop :=
  ∀ request ∈ met, ∀ world : World σ, Placed cache place world.workspace →
    ∃ after : World σ, compiler.send request world = resultOf after (verdict request) ∧
      Spares cache place world.workspace after.workspace

/-- The verdict of a first compiler, and that of a second one where the first is unavailable. -/
def verdictWith (fallback : Option Verdict) (first : Verdict) : Verdict := fun request =>
  match first request with
  | .ok output => .ok output
  | .error error =>
    match fallback with
    | some second => if error.isUnavailable then second request else .error error
    | none => .error error

/-- Both compilers of a pipeline are steady. -/
inductive SteadyPair (cache : Cache) (place : Location) (met : Set Request) (first : Compiler σ) :
    Option (Compiler σ) → Verdict → Prop where
  | alone {verdict : Verdict} (steady : Steady cache place met first verdict) :
      SteadyPair cache place met first none (verdictWith none verdict)
  | backed {second : Compiler σ} {verdict standIn : Verdict}
      (steady : Steady cache place met first verdict)
      (steady' : Steady cache place met second standIn) :
      SteadyPair cache place met first (some second) (verdictWith (some standIn) verdict)

/-- The compilers of a pipeline are steady and spare its cache; together they answer the verdict. -/
def SteadyPipeline (pipeline : Pipeline σ) (place : Location) (met : Set Request)
    (verdict : Verdict) : Prop :=
  SteadyPair pipeline.cache place met pipeline.primary pipeline.fallback verdict

/-- What compiling an entry file comes to without a cache: its request is prepared and dispatched,
the output is read, and the paths of this entry are put in. -/
def reference (pipeline : Pipeline σ) (verdict : Verdict) (w : Workspace) (entry : Path)
    (options : Options) : Except PipelineError Response :=
  match pipeline.prepared w entry options with
  | .error error => .error error
  | .ok prepared =>
    match verdict prepared.request with
    | .error error => .error (.dispatch error)
    | .ok output =>
      match pipeline.reader.read output with
      | .error error => .error (.decode ⟨prepared.names.restore error.warning⟩)
      | .ok response => .ok (response.restore prepared.names)

end Reference

section Compilers
variable {met : Set Request} {place : Location}

theorem result_of_answer {α ε : Type} (result : EStateM.Result ε (World σ) α) :
    result = resultOf (worldOf result) (answerOf result) := by
  cases result <;> rfl

/-- A service is steady: it sees nothing but the request, and changes no file. -/
theorem service_steady (service : CompilerService) (cache : Cache) :
    Steady cache place met (service.toCompiler : Compiler σ) service.send := by
  intro request _ world placed
  refine ⟨world, ?_, spares_refl placed⟩
  simp only [CompilerService.toCompiler]
  cases service.send request with
  | ok output => rfl
  | error error => rfl

/-- What a compiler does to files for a request whose files have plain names spares the cache. -/
def Considerate (cache : Cache) (place : Location) (compiler : Compiler σ) : Prop :=
  ∀ request, PlainFiles request → ∀ world : World σ, Placed cache place world.workspace →
    Spares cache place world.workspace (worldOf (compiler.send request world)).workspace

/-- An installed compiler is considerate if the program that it runs spares the cache. -/
theorem installed_considerate {compiler : InstalledCompiler} (harmless : Harmless compiler place) :
    Considerate compiler.cache place (compiler.toCompiler : Compiler σ) := by
  intro request plain world placed
  have spares := sparing_send harmless plain world.workspace placed
  simp only [InstalledCompiler.toCompiler, Act.onDisk]
  cases sent : compiler.send request world.workspace with
  | ok output after =>
    rw [sent] at spares
    exact spares
  | error error after =>
    rw [sent] at spares
    exact spares

end Compilers

section Steps
variable {pipeline : Pipeline σ} {verdict : Verdict} {met : Set Request} {place : Location}
  {world after : World σ} {w w' : Workspace}

/-- Whatever is kept as the result of a request met is what its output is read as, with the contents
in it still called by their names. -/
structure Faithful (pipeline : Pipeline σ) (verdict : Verdict) (met : Set Request) (place : Location)
    (w : Workspace) : Prop where
  placed : Placed pipeline.cache place w
  kept : ∀ request ∈ met, ∀ content, resultAt? place w request.digest = some content →
    ∃ output response, verdict request = .ok output ∧ pipeline.reader.read output = .ok response ∧
      content = keptForm response response.version

theorem faithful_of_spares (faithful : Faithful pipeline verdict met place w)
    (spares : Spares pipeline.cache place w w') : Faithful pipeline verdict met place w' where
  placed := spares.placed
  kept request inside content there :=
    faithful.kept request inside content (spares.results request.digest content there)

/-- Keeping what a request came to keeps faith with all requests that have other digests. -/
theorem faithful_of_put (faithful : Faithful pipeline verdict met place w)
    (apart : Set.InjOn Request.digest met) {request : Request} (inside : request ∈ met)
    {output : CompilerOutput} {response : Response} {answer : Unit}
    (answered : verdict request = .ok output) (read : pipeline.reader.read output = .ok response)
    (done : pipeline.cache.put request.digest response response.version w = .ok answer w') :
    Faithful pipeline verdict met place w' := by
  obtain ⟨placed, kept, others⟩ := put_effect faithful.placed done
  refine ⟨placed, fun other among content there => ?_⟩
  by_cases same : other.digest = request.digest
  · obtain rfl := apart among inside same
    exact ⟨output, response, answered, read, Option.some.inj (there.symm.trans kept)⟩
  · exact faithful.kept other among content (others other.digest content same there)

/-- A result that may be used is the one that the output of the request is read as. -/
theorem cached_faithful (faithful : Faithful pipeline verdict met place w) {request : Request}
    (inside : request ∈ met) {response : Response}
    (hit : pipeline.cached? w request = some response) :
    ∃ output, verdict request = .ok output ∧ pipeline.reader.read output = .ok response := by
  obtain ⟨entry, found, rfl⟩ := Option.map_eq_some_iff.mp hit
  obtain ⟨found, -⟩ := Option.filter_eq_some_iff.mp found
  obtain ⟨content, -, -, -, there, -⟩ := entry_of_result faithful.placed found
  obtain ⟨output, response, answered, read, rfl⟩ := faithful.kept request inside content there
  obtain rfl := entry_of_kept faithful.placed there found
  exact ⟨output, answered, read⟩

/-- Dispatching a request answers the verdict of the pipeline and spares its cache. -/
theorem dispatch_steady
    (steady : SteadyPipeline pipeline place met verdict)
    {request : Request} (inside : request ∈ met)
    (placed : Placed pipeline.cache place world.workspace) :
    ∃ after : World σ, pipeline.dispatch request world = resultOf after (verdict request) ∧
      Spares pipeline.cache place world.workspace after.workspace := by
  unfold Pipeline.dispatch
  unfold SteadyPipeline at steady
  generalize pipeline.fallback = fallback at steady ⊢
  cases steady with
  | @alone verdict steady =>
    obtain ⟨after, sent, spares⟩ := steady request inside world placed
    refine ⟨after, ?_, spares⟩
    rw [sent]
    cases answered : verdict request <;> simp [verdictWith, answered, resultOf]
  | @backed second verdict standIn steady steady' =>
    obtain ⟨after, sent, spares⟩ := steady request inside world placed
    cases answered : verdict request with
    | ok output =>
      refine ⟨after, ?_, spares⟩
      simp [sent, verdictWith, answered, resultOf]
    | error error =>
      by_cases unavailable : error.isUnavailable = true
      · obtain ⟨last, sent', spares'⟩ := steady' request inside after spares.placed
        refine ⟨last, ?_, spares_trans spares spares'⟩
        simp [sent, verdictWith, answered, resultOf, unavailable, sent']
      · refine ⟨after, ?_, spares⟩
        simp [sent, verdictWith, answered, resultOf, unavailable]

/-- The cache has an answer for the request of an entry file, or for no request that is made. -/
theorem hit_or_missed (pipeline : Pipeline σ) (w : Workspace) (entry : Path) (options : Options) :
    (∃ prepared response, pipeline.prepared w entry options = .ok prepared ∧
      pipeline.cached? w prepared.request = some response) ∨
    ∀ prepared, pipeline.prepared w entry options = .ok prepared →
      pipeline.cached? w prepared.request = none := by
  refine or_iff_not_imp_left.mpr fun nothing prepared made => ?_
  rw [Option.eq_none_iff_forall_ne_some]
  intro response hit
  exact nothing ⟨prepared, response, made, hit⟩

/-- A compilation that the cache has no answer for answers what the reference answers, if no change
to the cache failed. It spares the cache, or ends with a put of what its request came to. -/
theorem compile_missed
    (steady : SteadyPipeline pipeline place met verdict)
    (placed : Placed pipeline.cache place world.workspace) {entry : Path} {options : Options}
    (listed : ∀ prepared, pipeline.prepared world.workspace entry options = .ok prepared →
      prepared.request ∈ met)
    (missed : ∀ prepared, pipeline.prepared world.workspace entry options = .ok prepared →
      pipeline.cached? world.workspace prepared.request = none)
    (kept : ∀ cause, answerOf (pipeline.compile entry options world) ≠ .error (.cache cause)) :
    answerOf (pipeline.compile entry options world) =
        reference pipeline verdict world.workspace entry options ∧
      (Spares pipeline.cache place world.workspace
          (worldOf (pipeline.compile entry options world)).workspace ∨
        ∃ prepared output response spared,
          pipeline.prepared world.workspace entry options = .ok prepared ∧
          verdict prepared.request = .ok output ∧ pipeline.reader.read output = .ok response ∧
          Spares pipeline.cache place world.workspace spared ∧
          pipeline.cache.put prepared.request.digest response response.version spared =
            .ok () (worldOf (pipeline.compile entry options world)).workspace) := by
  unfold reference
  cases made : pipeline.prepared world.workspace entry options with
  | error error =>
    rw [compile_of_unprepared world made]
    exact ⟨rfl, .inl (spares_refl placed)⟩
  | ok prepared =>
    have missed := missed prepared made
    obtain ⟨after, sent, spares⟩ := dispatch_steady steady (listed prepared made) placed
    cases answered : verdict prepared.request with
    | error error =>
      rw [answered] at sent
      rw [compile_of_no_verdict world made missed sent]
      simp only [answered]
      exact ⟨rfl, .inl spares⟩
    | ok output =>
      rw [answered] at sent
      cases read : pipeline.reader.read output with
      | error error =>
        rw [compile_of_unreadable world made missed sent read]
        simp only [answered, read]
        exact ⟨rfl, .inl spares⟩
      | ok response =>
        simp only [answered, read]
        cases rejection : response.isRejection with
        | true =>
          rw [compile_of_rejection world made missed sent read rejection]
          exact ⟨rfl, .inl spares⟩
        | false =>
          cases done : pipeline.cache.put prepared.request.digest response response.version
            after.workspace with
          | ok answer filled =>
            rw [compile_of_put world made missed sent read rejection done]
            exact ⟨rfl, .inr ⟨prepared, output, response, after.workspace, rfl, answered, read,
              spares, done⟩⟩
          | error cause filled =>
            rw [compile_of_failed_put world made missed sent read rejection done] at kept
            exact absurd rfl (kept cause)

/-- A compilation answers what the reference answers, and keeps faith, if no change to the cache
failed. -/
theorem compile_step
    (steady : SteadyPipeline pipeline place met verdict)
    (apart : Set.InjOn Request.digest met)
    (faithful : Faithful pipeline verdict met place world.workspace) {entry : Path}
    {options : Options}
    (listed : ∀ prepared, pipeline.prepared world.workspace entry options = .ok prepared →
      prepared.request ∈ met)
    (kept : ∀ cause, answerOf (pipeline.compile entry options world) ≠ .error (.cache cause)) :
    answerOf (pipeline.compile entry options world) =
        reference pipeline verdict world.workspace entry options ∧
      Faithful pipeline verdict met place
        (worldOf (pipeline.compile entry options world)).workspace := by
  rcases hit_or_missed pipeline world.workspace entry options with
    ⟨prepared, response, made, hit⟩ | missed
  · obtain ⟨output, answered, read⟩ := cached_faithful faithful (listed prepared made) hit
    rw [compile_of_hit world made hit]
    simp only [reference, made, answered, read]
    exact ⟨rfl, faithful⟩
  · obtain ⟨answer, spares | ⟨prepared, output, response, spared, made, answered, read, spares, done⟩⟩ :=
      compile_missed steady faithful.placed listed missed kept
    · exact ⟨answer, faithful_of_spares faithful spares⟩
    · exact ⟨answer, faithful_of_put (faithful_of_spares faithful spares) apart
        (listed prepared made) answered read done⟩

/-- Clearing the cache spares it, whether it succeeds or fails. -/
theorem clear_cache_spares (placed : Placed pipeline.cache place world.workspace) :
    Spares pipeline.cache place world.workspace
      (worldOf (pipeline.clearCache world)).workspace := by
  unfold Pipeline.clearCache Act.onDisk
  obtain ⟨files, removes, ⟨count, done⟩ | ⟨cause, done⟩⟩ := clear_removes placed
  · rw [done]
    exact spares_removed placed removes
  · rw [done]
    exact spares_removed placed removes

/-- Clearing the cache keeps faith. -/
theorem clear_step (faithful : Faithful pipeline verdict met place world.workspace) :
    Faithful pipeline verdict met place (worldOf (pipeline.clearCache world)).workspace :=
  faithful_of_spares faithful (clear_cache_spares faithful.placed)

end Steps

section Runs
variable {pipeline : Pipeline σ} {verdict : Verdict} {met : Set Request} {place : Location}

/-- What may happen to a pipeline. -/
inductive Event where
  | compile (entry : Path) (options : Options)
  /-- Files outside the cache are edited, and this is what is there then. -/
  | edit (edited : Workspace)
  | clear

/-- The answers of the compilations of a run. -/
def answers (pipeline : Pipeline σ) : World σ → List Event → List (Except PipelineError Response)
  | _, [] => []
  | world, .compile entry options :: rest =>
    let result := pipeline.compile entry options world
    answerOf result :: answers pipeline (worldOf result) rest
  | world, .edit edited :: rest => answers pipeline { world with workspace := edited } rest
  | world, .clear :: rest => answers pipeline (worldOf (pipeline.clearCache world)) rest

/-- What the compilations of a run would have answered without a cache, each at its moment. -/
def referenceAnswers (pipeline : Pipeline σ) (verdict : Verdict) :
    World σ → List Event → List (Except PipelineError Response)
  | _, [] => []
  | world, .compile entry options :: rest =>
    reference pipeline verdict world.workspace entry options ::
      referenceAnswers pipeline verdict (worldOf (pipeline.compile entry options world)) rest
  | world, .edit edited :: rest =>
    referenceAnswers pipeline verdict { world with workspace := edited } rest
  | world, .clear :: rest =>
    referenceAnswers pipeline verdict (worldOf (pipeline.clearCache world)) rest

/-- An edit outside a cache: its root leads to the same place, where everything is as it was. -/
structure Outside (cache : Cache) (place : Location) (w edited : Workspace) : Prop where
  placed : Placed cache place edited
  kept : ∀ location, place <+: location → edited.files.get? location = w.files.get? location

/-- A run in which every request is one of those met, edits are made outside the cache, and what is
to be kept can be written. -/
def Regular (pipeline : Pipeline σ) (met : Set Request) (place : Location) :
    World σ → List Event → Prop
  | _, [] => True
  | world, .compile entry options :: rest =>
    (∀ prepared, pipeline.prepared world.workspace entry options = .ok prepared →
      prepared.request ∈ met) ∧
    (∀ cause, answerOf (pipeline.compile entry options world) ≠ .error (.cache cause)) ∧
    Regular pipeline met place (worldOf (pipeline.compile entry options world)) rest
  | world, .edit edited :: rest =>
    Outside pipeline.cache place world.workspace edited ∧
      Regular pipeline met place { world with workspace := edited } rest
  | world, .clear :: rest =>
    Regular pipeline met place (worldOf (pipeline.clearCache world)) rest

theorem outside_spares {cache : Cache} {w edited : Workspace}
    (outside : Outside cache place w edited) : Spares cache place w edited where
  placed := outside.placed
  results digest content there := by
    obtain ⟨executable, there⟩ := file_of_content there
    rw [outside.kept _ (artifact_within place digest _)] at there
    exact content_of_file there

/-- A run that starts with a faithful cache answers as the reference does all along. -/
theorem run_faithful (events : List Event) {world : World σ}
    (steady : SteadyPipeline pipeline place met verdict)
    (apart : Set.InjOn Request.digest met)
    (faithful : Faithful pipeline verdict met place world.workspace)
    (regular : Regular pipeline met place world events) :
    answers pipeline world events = referenceAnswers pipeline verdict world events := by
  induction events generalizing world with
  | nil => rfl
  | cons event rest ih =>
    cases event with
    | compile entry options =>
      obtain ⟨listed, kept, regular⟩ := regular
      obtain ⟨same, faithful⟩ := compile_step steady apart faithful listed kept
      simp only [answers, referenceAnswers, same, ih faithful regular]
    | edit edited =>
      obtain ⟨outside, regular⟩ := regular
      have spared := faithful_of_spares faithful (outside_spares outside)
      simp only [answers, referenceAnswers]
      exact ih spared regular
    | clear =>
      simp only [answers, referenceAnswers]
      exact ih (clear_step faithful) regular

/-- From an empty scratch root on, through any run of compilations, edits and clearings, a pipeline
answers each compilation as it would have without its cache. The root may be missing, and links may lead
to it, but its own path is not a link, and no links are below it. -/
theorem answers_as_without_cache (pipeline : Pipeline σ) (verdict : Verdict) (met : Set Request)
    (place : Location) (world : World σ) (events : List Event)
    (placed : Placed pipeline.cache place world.workspace)
    (empty : ∀ location, place <+: location → location ≠ place →
      world.workspace.files.get? location = none)
    (steady : SteadyPipeline pipeline place met verdict)
    (fits : ∀ request ∈ met, RequestFits request)
    (apart : Distinguishes (Request.encode '' met))
    (regular : Regular pipeline met place world events) :
    answers pipeline world events = referenceAnswers pipeline verdict world events := by
  have told : Set.InjOn Request.digest met := by
    intro first inside second inside' same
    exact encode_injective_of_fits (fits first inside) (fits second inside')
      (apart ⟨first, inside, rfl⟩ ⟨second, inside', rfl⟩ same)
  have faithful : Faithful pipeline verdict met place world.workspace := by
    refine ⟨placed, fun request _ content there => ?_⟩
    obtain ⟨executable, there⟩ := file_of_content there
    rw [empty _ (artifact_within place request.digest _) (by simp [artifactPlace])] at there
    cases there
  exact run_faithful events steady told faithful regular

end Runs

section Examples

/-- A compiler that has a remark about each entry file, and counts its calls. -/
def remarking : Compiler Nat where
  send request := fun world =>
    .ok ⟨request.entry ++ ": unused\n\x7b\"contracts\":\x7b\x7d\x7d", false⟩
      { world with outside := world.outside + 1 }
  description := "remarking compiler"

/-- What the compiler answers. -/
def remark : Verdict := fun request =>
  .ok ⟨request.entry ++ ": unused\n\x7b\"contracts\":\x7b\x7d\x7d", false⟩

/-- The response to the remark about the empty content. -/
def remarked : Response := ⟨[], emptyName ++ ": unused", "", ""⟩

/-- A pipeline with this compiler. -/
def remarkingPipeline : Pipeline Nat where
  roots := []
  primary := remarking
  fallback := none
  reader := .default
  cache := smallCache

/-- The response that is shown for one of two files. -/
def shown (name : String) : Response := ⟨[], name ++ ": unused", "", ""⟩

theorem remark_read :
    OutputReader.default.read
      ⟨emptyName ++ ": unused\n\x7b\"contracts\":\x7b\x7d\x7d", false⟩ = .ok remarked := by
  decide +kernel

theorem remark_kept :
    Artifact.decode? (keptForm remarked "") = some ⟨"", Codec.response remarked⟩ ∧
      Codec.readResponse? (Codec.response remarked) = some (remarked, []) := by
  decide +kernel

/-- The first compilation keeps the response, with the name of the content in it. -/
theorem first_compile :
    ∃ after : Workspace, Filled ["c"] emptyRequest.digest (keptForm remarked "") twoNames after ∧
      remarkingPipeline.compile ⟨"M.sol"⟩ ⟨"", false⟩ ⟨twoNames, 0⟩ =
        .ok (shown "M.sol") ⟨after, 1⟩ := by
  obtain ⟨after, put, filled⟩ := two_names_put emptyRequest.digest remarked
  have sent : remarkingPipeline.dispatch emptyRequest ⟨twoNames, 0⟩ =
      .ok ⟨emptyName ++ ": unused\n\x7b\"contracts\":\x7b\x7d\x7d", false⟩
        ⟨twoNames, 1⟩ := rfl
  have restored : remarked.restore (Source.Names.empty.insert emptyName ⟨"M.sol"⟩) =
      shown "M.sol" := by
    decide +kernel
  have made : remarkingPipeline.prepared twoNames ⟨"M.sol"⟩ ⟨"", false⟩ =
      .ok ⟨emptyRequest, Source.Names.empty.insert emptyName ⟨"M.sol"⟩⟩ := two_names_prepared rfl
  have compiled : remarkingPipeline.compile ⟨"M.sol"⟩ ⟨"", false⟩ ⟨twoNames, 0⟩ =
      .ok _ ⟨after, 1⟩ :=
    compile_of_put ⟨twoNames, 0⟩ made (two_names_missed rfl _) sent remark_read (by decide) put
  exact ⟨after, filled, by rw [compiled, restored]⟩

/-- The second one finds it, and puts its own path in. -/
private theorem second_compile {after : Workspace}
    (filled : Filled ["c"] emptyRequest.digest (keptForm remarked "") twoNames after) :
    remarkingPipeline.compile ⟨"N.sol"⟩ ⟨"", false⟩ (⟨after, 1⟩ : World Nat) =
      .ok (shown "N.sol") ⟨after, 1⟩ := by
  have entry := two_names_entry filled remark_kept.1 remark_kept.2
  have hit : remarkingPipeline.cached? after emptyRequest = some remarked := by
    rw [Pipeline.cached?, remarkingPipeline, entry]
    rfl
  have restored : remarked.restore (Source.Names.empty.insert emptyName ⟨"N.sol"⟩) =
      shown "N.sol" := by
    decide +kernel
  have compiled : remarkingPipeline.compile ⟨"N.sol"⟩ ⟨"", false⟩ ⟨after, 1⟩ = .ok _ ⟨after, 1⟩ :=
    compile_of_hit ⟨after, 1⟩ (two_names_prepared_after rfl filled (by simp)) hit
  rw [compiled, restored]

/-- Of two files with the same content, the second is answered from the cache, without another call
of the compiler, and its own name is shown. -/
theorem second_name_answered :
    ∃ after : Workspace,
      remarkingPipeline.compile ⟨"M.sol"⟩ ⟨"", false⟩ ⟨twoNames, 0⟩ =
        .ok (shown "M.sol") ⟨after, 1⟩ ∧
      remarkingPipeline.compile ⟨"N.sol"⟩ ⟨"", false⟩ ⟨after, 1⟩ =
        .ok (shown "N.sol") ⟨after, 1⟩ ∧
      answers remarkingPipeline ⟨twoNames, 0⟩
          [.compile ⟨"M.sol"⟩ ⟨"", false⟩, .compile ⟨"N.sol"⟩ ⟨"", false⟩] =
        referenceAnswers remarkingPipeline (verdictWith none remark) ⟨twoNames, 0⟩
          [.compile ⟨"M.sol"⟩ ⟨"", false⟩, .compile ⟨"N.sol"⟩ ⟨"", false⟩] := by
  obtain ⟨after, filled, first⟩ := first_compile
  have second := second_compile filled
  refine ⟨after, first, second, ?_⟩
  refine answers_as_without_cache remarkingPipeline (verdictWith none remark) {emptyRequest} ["c"]
    ⟨twoNames, 0⟩ _ two_names_placed two_names_bare (.alone ?_) ?_ ?_ ?_
  · intro request _ world placed
    exact ⟨_, rfl, placed, fun _ _ there => there⟩
  · rintro request rfl
    decide +kernel
  · rw [Set.image_singleton]
    exact Set.injOn_singleton _ _
  · have listed : ∀ (w : Workspace) (name : String),
        remarkingPipeline.prepared w ⟨name⟩ ⟨"", false⟩ =
          .ok ⟨emptyRequest, Source.Names.empty.insert emptyName ⟨name⟩⟩ →
        ∀ prepared, remarkingPipeline.prepared w ⟨name⟩ ⟨"", false⟩ = .ok prepared →
          prepared.request ∈ ({emptyRequest} : Set Request) := by
      intro w name made prepared made'
      obtain rfl := Except.ok.inj (made.symm.trans made')
      rfl
    refine ⟨listed _ _ (two_names_prepared rfl), by simp [first, answerOf], ?_⟩
    rw [first]
    refine ⟨listed _ _ (two_names_prepared_after rfl filled (by simp)), ?_, trivial⟩
    dsimp only [worldOf]
    simp [second, answerOf]

end Examples

end ContractBuild.CacheTransparency
