import ContractBuild.Proofs.CacheTransparency

/-! Pipelines that share a cache, but cut metadata off by rules of their own. What is kept for a
request has been cut by the rules of the pipeline that kept it, and nothing says whose they were. So
a compilation answers what some pipeline would answer from an empty cache that has compiled the same
request before, or the pipeline itself; and these are its own objects exactly if the rules of both
cut the same off every code that the compiler puts out for the request. -/
namespace ContractBuild.SharedCache
open CacheChange CachePlace CacheRoom CompileSteps PathWalk RequestIdentity Response
open CacheTransparency hiding Event Regular compile_step clear_step

variable {σ ι : Type}

section Rules
variable {first second : StripPolicy} {assumed : Option String} {output : CompilerOutput}

/-- The release that the codes in a document come from. -/
def releaseOf (assumed : Option String) (document : Document) : Option Release :=
  Release.ofVersion? ((document.version.or assumed).getD "")

/-- Two policies cut the same off every code in a document. -/
def CutAlikeIn (assumed : Option String) (document : Document) (first second : StripPolicy) : Prop :=
  ∀ listed ∈ document.contracts,
    first.strip (releaseOf assumed document) (Text.trim listed.2.code.toList) =
      second.strip (releaseOf assumed document) (Text.trim listed.2.code.toList)

/-- Two policies cut the same off every code in an output. -/
def CutAlike (assumed : Option String) (output : CompilerOutput) (first second : StripPolicy) :
    Prop :=
  output.rejected = false →
    ∀ document, readDocument (splitWarning output.text.toList).2 = some document →
      CutAlikeIn assumed document first second

private theorem objects_same_iff (warning : String) (document : Document) :
    ((OutputReader.mk first assumed).ofDocument warning document).objects =
        ((OutputReader.mk second assumed).ofDocument warning document).objects ↔
      CutAlikeIn assumed document first second := by
  simp only [OutputReader.ofDocument, List.map_inj_left, CompiledObject.mk.injEq,
    String.ofList_inj, true_and, and_true]
  rfl

private theorem read_of_document (reader : OutputReader) (accepted : output.rejected = false)
    {document : Document}
    (decoded : readDocument (splitWarning output.text.toList).2 = some document) :
    reader.read output =
      .ok (reader.ofDocument (String.ofList (splitWarning output.text.toList).1) document) := by
  simp [OutputReader.read, OutputReader.readAccepted, accepted, decoded]

/-- Outputs in which policies cut alike are read as the same. -/
theorem read_alike (alike : CutAlike assumed output first second) :
    (OutputReader.mk first assumed).read output = (OutputReader.mk second assumed).read output := by
  cases rejection : output.rejected with
  | true => simp [OutputReader.read, rejection]
  | false =>
    cases decoded : readDocument (splitWarning output.text.toList).2 with
    | none => simp [OutputReader.read, OutputReader.readAccepted, rejection, decoded]
    | some document =>
      have objects := (objects_same_iff (String.ofList (splitWarning output.text.toList).1)
        document).mpr (alike rejection document decoded)
      rw [read_of_document _ rejection decoded, read_of_document _ rejection decoded]
      exact congrArg _ (congrArg (Response.mk · _ _ _) objects)

end Rules

section Members
variable {base : Pipeline σ} {policies : ι → StripPolicy} {verdict : Verdict}

/-- One of several pipelines that have everything but their rules in common. -/
def member (base : Pipeline σ) (policies : ι → StripPolicy) (who : ι) : Pipeline σ :=
  { base with reader := { base.reader with policy := policies who } }

@[simp] theorem prepared_member (base : Pipeline σ) (policies : ι → StripPolicy) (who : ι) :
    (member base policies who).prepared = base.prepared := rfl

@[simp] theorem cached_member (base : Pipeline σ) (policies : ι → StripPolicy) (who : ι) :
    (member base policies who).cached? = base.cached? := rfl

theorem steady_member {met : Set Request} {place : Location} (policies : ι → StripPolicy) (who : ι)
    (steady : SteadyPipeline base place met verdict) :
    SteadyPipeline (member base policies who) place met verdict := steady

/-- Two policies cut alike what the compiler puts out for an entry file. -/
def CutAlikeFor (base : Pipeline σ) (verdict : Verdict) (w : Workspace) (entry : Path)
    (options : Options) (first second : StripPolicy) : Prop :=
  ∀ prepared output, base.prepared w entry options = .ok prepared →
    verdict prepared.request = .ok output → CutAlike base.reader.assumedVersion output first second

/-- Pipelines whose rules cut alike come to the same without a cache. -/
theorem reference_alike {w : Workspace} {entry : Path} {options : Options} {keeper who : ι}
    (alike : CutAlikeFor base verdict w entry options (policies keeper) (policies who)) :
    reference (member base policies keeper) verdict w entry options =
      reference (member base policies who) verdict w entry options := by
  simp only [reference, prepared_member]
  cases made : base.prepared w entry options with
  | error error => rfl
  | ok prepared =>
    cases answered : verdict prepared.request with
    | error error => simp only [answered]
    | ok output =>
      have read : (member base policies keeper).reader.read output =
          (member base policies who).reader.read output :=
        read_alike (alike prepared output made answered)
      simp only [answered, read]

/-- Pipelines that come to the same objects without a cache have rules that cut alike. -/
theorem alike_of_objects {w : Workspace} {entry : Path} {options : Options} {keeper who : ι}
    (same : (reference (member base policies keeper) verdict w entry options).map Response.objects =
      (reference (member base policies who) verdict w entry options).map Response.objects) :
    CutAlikeFor base verdict w entry options (policies keeper) (policies who) := by
  intro prepared output made answered accepted document decoded
  have comes : ∀ who, (reference (member base policies who) verdict w entry options).map
      Response.objects = .ok ((OutputReader.mk (policies who) base.reader.assumedVersion).ofDocument
        (String.ofList (splitWarning output.text.toList).1) document).objects := by
    intro who
    have read := read_of_document (member base policies who).reader accepted decoded
    simp only [reference, prepared_member, made, answered, read]
    rfl
  rw [comes, comes] at same
  exact (objects_same_iff _ document).mp (Except.ok.inj same)

/-- Pipelines come to the same without a cache exactly if their rules cut alike. -/
theorem reference_eq_iff {w : Workspace} {entry : Path} {options : Options} {keeper who : ι} :
    reference (member base policies keeper) verdict w entry options =
        reference (member base policies who) verdict w entry options ↔
      CutAlikeFor base verdict w entry options (policies keeper) (policies who) :=
  ⟨fun same => alike_of_objects (congrArg _ same), reference_alike⟩

end Members

section Steps

/-- What may happen to pipelines that share a cache. -/
inductive Event (ι : Type) where
  | compile (who : ι) (entry : Path) (options : Options)
  /-- Files outside the cache are edited, and this is what is there then. -/
  | edit (edited : Workspace)
  | clear

/-- A moment of a run. -/
structure Moment (σ ι : Type) where
  world : World σ
  /-- The requests compiled so far, each with the pipeline that compiled it. -/
  asked : List (ι × Request)

variable (base : Pipeline σ) (policies : ι → StripPolicy)

/-- The moment after an event. -/
def Moment.next (moment : Moment σ ι) : Event ι → Moment σ ι
  | .compile who entry options =>
    { world := worldOf ((member base policies who).compile entry options moment.world)
      asked := match base.prepared moment.world.workspace entry options with
        | .ok prepared => (who, prepared.request) :: moment.asked
        | .error _ => moment.asked }
  | .edit edited => { moment with world := { moment.world with workspace := edited } }
  | .clear => { moment with world := worldOf (base.clearCache moment.world) }

/-- The moment after a run. -/
def Moment.after (moment : Moment σ ι) (events : List (Event ι)) : Moment σ ι :=
  events.foldl (Moment.next base policies) moment

/-- An event in which a request that is made is one of those met, an edit is made outside the cache,
and what is to be kept can be written. -/
def Permitted (met : Set Request) (place : Location) (moment : Moment σ ι) : Event ι → Prop
  | .compile who entry options =>
    (∀ prepared, base.prepared moment.world.workspace entry options = .ok prepared →
      prepared.request ∈ met) ∧
    ∀ cause, answerOf ((member base policies who).compile entry options moment.world) ≠
      .error (.cache cause)
  | .edit edited => Outside base.cache place moment.world.workspace edited
  | .clear => True

/-- A run of such events. -/
def Regular (met : Set Request) (place : Location) : Moment σ ι → List (Event ι) → Prop
  | _, [] => True
  | moment, event :: rest =>
    Permitted base policies met place moment event ∧
      Regular met place (moment.next base policies event) rest

/-- A pipeline whose result a compilation may come to: the one that compiles, or one that has
compiled the same request before. -/
def MayKeep (moment : Moment σ ι) (who : ι) (entry : Path) (options : Options) (keeper : ι) : Prop :=
  keeper = who ∨ ∃ prepared,
    base.prepared moment.world.workspace entry options = .ok prepared ∧
      (keeper, prepared.request) ∈ moment.asked

/-- Whatever is kept as the result of a request met is what one of the pipelines that compiled the
request reads its output as. -/
structure Attributed (verdict : Verdict) (met : Set Request) (place : Location)
    (moment : Moment σ ι) : Prop where
  placed : Placed base.cache place moment.world.workspace
  kept : ∀ request ∈ met, ∀ content,
    resultAt? place moment.world.workspace request.digest = some content →
      ∃ keeper output response, (keeper, request) ∈ moment.asked ∧
        verdict request = .ok output ∧
        (member base policies keeper).reader.read output = .ok response ∧
        content = keptForm response response.version

variable {base policies} {verdict : Verdict} {met : Set Request} {place : Location}
  {moment : Moment σ ι}

theorem attributed_of_spares (attributed : Attributed base policies verdict met place moment)
    {world : World σ} {asked : List (ι × Request)}
    (spares : Spares base.cache place moment.world.workspace world.workspace)
    (more : moment.asked ⊆ asked) : Attributed base policies verdict met place ⟨world, asked⟩ where
  placed := spares.placed
  kept request inside content there := by
    obtain ⟨keeper, output, response, among, rest⟩ :=
      attributed.kept request inside content (spares.results request.digest content there)
    exact ⟨keeper, output, response, more among, rest⟩

/-- What a pipeline keeps for a request is attributed to it, and everything else as before. -/
theorem attributed_of_put (attributed : Attributed base policies verdict met place moment)
    (apart : Set.InjOn Request.digest met) {who : ι} {request : Request} (inside : request ∈ met)
    {output : CompilerOutput} {response : Response} (answered : verdict request = .ok output)
    (read : (member base policies who).reader.read output = .ok response) {spared : Workspace}
    (spares : Spares base.cache place moment.world.workspace spared) {world : World σ}
    (done : base.cache.put request.digest response response.version spared =
      .ok () world.workspace) :
    Attributed base policies verdict met place ⟨world, (who, request) :: moment.asked⟩ := by
  obtain ⟨placed, kept, others⟩ := put_effect spares.placed done
  refine ⟨placed, fun other among content there => ?_⟩
  by_cases same : other.digest = request.digest
  · obtain rfl := apart among inside same
    exact ⟨who, output, response, List.mem_cons_self, answered, read,
      Option.some.inj (there.symm.trans kept)⟩
  · obtain ⟨keeper, output, response, asked, rest⟩ := attributed.kept other among content
      (spares.results other.digest content (others other.digest content same there))
    exact ⟨keeper, output, response, List.mem_cons_of_mem _ asked, rest⟩

/-- A result that may be used is what a pipeline that compiled the request reads its output as. -/
theorem cached_attributed (attributed : Attributed base policies verdict met place moment)
    {request : Request} (inside : request ∈ met) {response : Response}
    (hit : base.cached? moment.world.workspace request = some response) :
    ∃ keeper output, (keeper, request) ∈ moment.asked ∧ verdict request = .ok output ∧
      (member base policies keeper).reader.read output = .ok response := by
  obtain ⟨entry, found, rfl⟩ := Option.map_eq_some_iff.mp hit
  obtain ⟨found, -⟩ := Option.filter_eq_some_iff.mp found
  obtain ⟨content, -, -, -, there, -⟩ := entry_of_result attributed.placed found
  obtain ⟨keeper, output, response, among, answered, read, rfl⟩ :=
    attributed.kept request inside content there
  obtain rfl := entry_of_kept attributed.placed there found
  exact ⟨keeper, output, among, answered, read⟩

/-- A compilation comes to the result of a pipeline that may have kept it, and every result there
afterwards is still some pipeline's. -/
theorem compile_step (steady : SteadyPipeline base place met verdict)
    (apart : Set.InjOn Request.digest met)
    (attributed : Attributed base policies verdict met place moment) {who : ι} {entry : Path}
    {options : Options}
    (permitted : Permitted base policies met place moment (.compile who entry options)) :
    (∃ keeper, MayKeep base moment who entry options keeper ∧
      answerOf ((member base policies who).compile entry options moment.world) =
        reference (member base policies keeper) verdict moment.world.workspace entry options) ∧
    Attributed base policies verdict met place
      (moment.next base policies (.compile who entry options)) := by
  obtain ⟨listed, written⟩ := permitted
  rcases hit_or_missed (member base policies who) moment.world.workspace entry options with
    ⟨prepared, response, made, hit⟩ | missed
  · have compiled := compile_of_hit moment.world made hit
    simp only [prepared_member, cached_member] at made hit
    obtain ⟨keeper, output, among, answered, read⟩ :=
      cached_attributed attributed (listed prepared made) hit
    refine ⟨⟨keeper, .inr ⟨prepared, made, among⟩, ?_⟩, ?_⟩
    · rw [compiled]
      simp only [reference, prepared_member, made, answered, read]
      rfl
    · simp only [Moment.next, compiled, made]
      exact attributed_of_spares attributed (spares_refl attributed.placed)
        (List.subset_cons_self _ _)
  · obtain ⟨answer, left⟩ := compile_missed (steady_member policies who steady) attributed.placed
      listed missed written
    refine ⟨⟨who, .inl rfl, answer⟩, ?_⟩
    rcases left with spares | ⟨prepared, output, response, spared, made, answered, read, spares, done⟩
    · refine attributed_of_spares attributed spares ?_
      split
      · exact List.subset_cons_self _ _
      · exact List.Subset.refl _
    · simp only [prepared_member] at made
      simp only [Moment.next, made]
      exact attributed_of_put attributed apart (listed prepared made) answered read spares done

/-- Every result stays some pipeline's through every event that is permitted. -/
theorem attributed_next (steady : SteadyPipeline base place met verdict)
    (apart : Set.InjOn Request.digest met)
    (attributed : Attributed base policies verdict met place moment) {event : Event ι}
    (permitted : Permitted base policies met place moment event) :
    Attributed base policies verdict met place (moment.next base policies event) := by
  cases event with
  | compile who entry options => exact (compile_step steady apart attributed permitted).2
  | edit edited =>
    exact attributed_of_spares attributed (outside_spares permitted) (List.Subset.refl _)
  | clear =>
    exact attributed_of_spares attributed (clear_cache_spares attributed.placed)
      (List.Subset.refl _)

end Steps

section Runs
variable {base : Pipeline σ} {policies : ι → StripPolicy} {verdict : Verdict} {met : Set Request}
  {place : Location}

/-- A run that goes on is regular up to the event that comes next, and this event is permitted. -/
theorem regular_concat {events : List (Event ι)} {event : Event ι} {moment : Moment σ ι}
    (regular : Regular base policies met place moment (events ++ [event])) :
    Regular base policies met place moment events ∧
      Permitted base policies met place (moment.after base policies events) event := by
  induction events generalizing moment with
  | nil => exact ⟨trivial, regular.1⟩
  | cons earlier rest ih =>
    obtain ⟨permitted, regular⟩ := regular
    obtain ⟨regular, last⟩ := ih regular
    exact ⟨⟨permitted, regular⟩, last⟩

/-- Through a whole run every result stays some pipeline's. -/
theorem attributed_after (steady : SteadyPipeline base place met verdict)
    (apart : Set.InjOn Request.digest met) (events : List (Event ι)) {moment : Moment σ ι}
    (attributed : Attributed base policies verdict met place moment)
    (regular : Regular base policies met place moment events) :
    Attributed base policies verdict met place (moment.after base policies events) := by
  induction events generalizing moment with
  | nil => exact attributed
  | cons event rest ih =>
    obtain ⟨permitted, regular⟩ := regular
    exact ih (attributed_next steady apart attributed permitted) regular

/-- A world in which a pipeline makes the same request of an entry file as in a given one, nothing is
kept in the cache, and what is to be kept can be written. -/
structure Fresh (pipeline : Pipeline σ) (met : Set Request) (place : Location) (w : Workspace)
    (entry : Path) (options : Options) (fresh : World σ) : Prop where
  placed : Placed pipeline.cache place fresh.workspace
  nothing : ∀ request ∈ met, resultAt? place fresh.workspace request.digest = none
  same : pipeline.prepared fresh.workspace entry options = pipeline.prepared w entry options
  written : ∀ cause, answerOf (pipeline.compile entry options fresh) ≠ .error (.cache cause)

/-- From an empty cache a pipeline answers what the reference does. -/
theorem reference_of_fresh {pipeline : Pipeline σ} (steady : SteadyPipeline pipeline place met verdict)
    {w : Workspace} {entry : Path} {options : Options} {world : World σ}
    (listed : ∀ prepared, pipeline.prepared w entry options = .ok prepared → prepared.request ∈ met)
    (fresh : Fresh pipeline met place w entry options world) :
    answerOf (pipeline.compile entry options world) =
      reference pipeline verdict w entry options := by
  have listed : ∀ prepared, pipeline.prepared world.workspace entry options = .ok prepared →
      prepared.request ∈ met := fun prepared made => listed prepared (fresh.same ▸ made)
  have missed : ∀ prepared, pipeline.prepared world.workspace entry options = .ok prepared →
      pipeline.cached? world.workspace prepared.request = none := fun prepared made =>
    not_cached fresh.placed (fresh.nothing _ (listed prepared made))
  rw [(compile_missed steady fresh.placed listed missed fresh.written).1, reference, reference,
    fresh.same]

/-- Pipelines with rules of their own share a cache, from an empty root on, through any run of
compilations, edits and clearings. Each compilation answers what a pipeline that has compiled the
same request, or the one that compiles, would answer from an empty cache. It is what the pipeline
itself would answer exactly if the rules of both cut the same off every code in the output for the
request; otherwise the objects are others. -/
theorem answer_own_iff_cut_alike (base : Pipeline σ) (policies : ι → StripPolicy)
    (verdict : Verdict) (met : Set Request) (place : Location) (world : World σ)
    (events : List (Event ι)) (who : ι) (entry : Path) (options : Options)
    (placed : Placed base.cache place world.workspace)
    (empty : ∀ location, place <+: location → location ≠ place →
      world.workspace.files.get? location = none)
    (steady : SteadyPipeline base place met verdict)
    (fits : ∀ request ∈ met, RequestFits request)
    (apart : Distinguishes (Request.encode '' met))
    (regular : Regular base policies met place ⟨world, []⟩
      (events ++ [.compile who entry options])) :
    let now := Moment.after base policies ⟨world, []⟩ events
    let answer := answerOf ((member base policies who).compile entry options now.world)
    let own := reference (member base policies who) verdict now.world.workspace entry options
    (∀ fresh, Fresh (member base policies who) met place now.world.workspace entry options fresh →
      answerOf ((member base policies who).compile entry options fresh) = own) ∧
    ∃ keeper, MayKeep base now who entry options keeper ∧
      answer =
        reference (member base policies keeper) verdict now.world.workspace entry options ∧
      (answer = own ↔ CutAlikeFor base verdict now.world.workspace entry options
        (policies keeper) (policies who)) ∧
      (answer.map Response.objects = own.map Response.objects → answer = own) := by
  intro now answer own
  have told : Set.InjOn Request.digest met := by
    intro first inside second inside' same
    exact encode_injective_of_fits (fits first inside) (fits second inside')
      (apart ⟨first, inside, rfl⟩ ⟨second, inside', rfl⟩ same)
  have bare : Attributed base policies verdict met place ⟨world, []⟩ := by
    refine ⟨placed, fun request _ content there => ?_⟩
    obtain ⟨executable, there⟩ := file_of_content there
    rw [empty _ (artifact_within place request.digest _) (by simp [artifactPlace])] at there
    cases there
  obtain ⟨regular, permitted⟩ := regular_concat regular
  have attributed := attributed_after steady told events bare regular
  obtain ⟨⟨keeper, mayKeep, comes⟩, -⟩ := compile_step steady told attributed permitted
  refine ⟨fun fresh => reference_of_fresh (steady_member policies who steady) permitted.1, keeper,
    mayKeep, comes, ?_⟩
  rw [show answer = _ from comes]
  exact ⟨reference_eq_iff, fun same => reference_alike (alike_of_objects same)⟩

end Runs

section Examples

/-- What the compiler puts out for every request. -/
def listing : CompilerOutput where
  text := "\x7b\"contracts\":\x7b\"M.sol:M\":\x7b\"bin\":\"60606040\"\x7d\x7d,\"version\":\"0.4.6\"\x7d"
  rejected := false

/-- A pipeline with this compiler. -/
def listingPipeline : Pipeline Unit where
  roots := []
  primary := { send _ := fun world => .ok listing world, description := "listing compiler" }
  fallback := none
  reader := .default
  cache := smallCache

/-- The response to the output if the code in it has been cut down to this. -/
def cutTo (code : String) : Response := ⟨[⟨"M", code, ""⟩], "", "0.4.6", ""⟩

/-- Rules of two pipelines that disagree about the releases of the compiler. -/
def disagreeing (who : Bool) : StripPolicy := .ofSettings [⟨"=0.4.6", if who then 4 else 2⟩]

/-- Rules of two pipelines that disagree about other releases only. -/
def detailed (who : Bool) : StripPolicy :=
  .ofSettings (if who then [⟨">=0.5.0", 8⟩, ⟨"=0.4.6", 2⟩] else [⟨"=0.4.6", 2⟩])

private theorem cut_kept :
    Artifact.decode? (keptForm (cutTo "606060") "0.4.6") =
        some ⟨"0.4.6", Codec.response (cutTo "606060")⟩ ∧
      Codec.readResponse? (Codec.response (cutTo "606060")) = some (cutTo "606060", []) := by
  decide +kernel

private theorem cut_restored (code : String) :
    (cutTo code).restore (Source.Names.empty.insert emptyName ⟨"M.sol"⟩) = cutTo code := by
  have silent : (Source.Names.empty.insert emptyName ⟨"M.sol"⟩).restore "" = "" := by
    decide +kernel
  simp only [Response.restore, cutTo, silent]

/-- From an empty cache a pipeline answers with the code as its rules cut it, and keeps that. -/
private theorem first_answer {policies : Bool → StripPolicy} {who : Bool} {code : String}
    (read : (member listingPipeline policies who).reader.read listing = .ok (cutTo code)) :
    ∃ kept : Workspace,
      Filled ["c"] emptyRequest.digest (keptForm (cutTo code) "0.4.6") twoNames kept ∧
      (member listingPipeline policies who).compile ⟨"M.sol"⟩ ⟨"", false⟩ ⟨twoNames, ()⟩ =
        .ok (cutTo code) ⟨kept, ()⟩ := by
  obtain ⟨kept, put, filled⟩ := two_names_put emptyRequest.digest (cutTo code)
  have sent : (member listingPipeline policies who).dispatch emptyRequest ⟨twoNames, ()⟩ =
      .ok listing ⟨twoNames, ()⟩ := rfl
  have compiled : (member listingPipeline policies who).compile ⟨"M.sol"⟩ ⟨"", false⟩
      ⟨twoNames, ()⟩ = .ok _ ⟨kept, ()⟩ :=
    compile_of_put ⟨twoNames, ()⟩ (two_names_prepared rfl) (two_names_missed rfl _) sent read rfl put
  exact ⟨kept, filled, by rw [compiled, cut_restored]⟩

section Second
variable {policies : Bool → StripPolicy} {who : Bool} {kept : Workspace}
  (filled : Filled ["c"] emptyRequest.digest (keptForm (cutTo "606060") "0.4.6") twoNames kept)
include filled

private theorem second_hit :
    (member listingPipeline policies who).cached? kept emptyRequest = some (cutTo "606060") := by
  have entry := two_names_entry filled cut_kept.1 cut_kept.2
  rw [Pipeline.cached?, member, listingPipeline, entry]
  rfl

/-- After that every pipeline answers with this code. -/
private theorem second_answer :
    (member listingPipeline policies who).compile ⟨"M.sol"⟩ ⟨"", false⟩ ⟨kept, ()⟩ =
      .ok (cutTo "606060") ⟨kept, ()⟩ := by
  have compiled : (member listingPipeline policies who).compile ⟨"M.sol"⟩ ⟨"", false⟩ ⟨kept, ()⟩ =
      .ok _ ⟨kept, ()⟩ :=
    compile_of_hit ⟨kept, ()⟩ (two_names_prepared_after rfl filled (by simp)) (second_hit filled)
  rw [compiled, cut_restored]

end Second

/-- A pipeline whose rules cut more off is answered what another one has kept, and not what it
answers from an empty cache. -/
theorem longer_cut_not_answered :
    ∃ kept fresh : Workspace,
      (member listingPipeline disagreeing false).compile ⟨"M.sol"⟩ ⟨"", false⟩ ⟨twoNames, ()⟩ =
        .ok (cutTo "606060") ⟨kept, ()⟩ ∧
      (member listingPipeline disagreeing true).compile ⟨"M.sol"⟩ ⟨"", false⟩ ⟨kept, ()⟩ =
        .ok (cutTo "606060") ⟨kept, ()⟩ ∧
      (member listingPipeline disagreeing true).compile ⟨"M.sol"⟩ ⟨"", false⟩ ⟨twoNames, ()⟩ =
        .ok (cutTo "6060") ⟨fresh, ()⟩ := by
  have short : (member listingPipeline disagreeing false).reader.read listing =
      .ok (cutTo "606060") := by
    decide +kernel
  have long : (member listingPipeline disagreeing true).reader.read listing =
      .ok (cutTo "6060") := by
    decide +kernel
  obtain ⟨kept, filled, first⟩ := first_answer short
  obtain ⟨fresh, -, own⟩ := first_answer long
  exact ⟨kept, fresh, first, second_answer filled, own⟩

private theorem only_request {w : Workspace}
    (made : listingPipeline.prepared w ⟨"M.sol"⟩ ⟨"", false⟩ =
      .ok ⟨emptyRequest, Source.Names.empty.insert emptyName ⟨"M.sol"⟩⟩) :
    ∀ prepared, listingPipeline.prepared w ⟨"M.sol"⟩ ⟨"", false⟩ = .ok prepared →
      prepared.request ∈ ({emptyRequest} : Set Request) := by
  intro prepared made'
  obtain rfl := Except.ok.inj (made.symm.trans made')
  rfl

/-- A pipeline whose rules are others for other releases is answered its own from what another one
has kept. -/
theorem rules_for_other_releases_share :
    ∃ kept : Workspace,
      (member listingPipeline detailed false).compile ⟨"M.sol"⟩ ⟨"", false⟩ ⟨twoNames, ()⟩ =
        .ok (cutTo "606060") ⟨kept, ()⟩ ∧
      (member listingPipeline detailed true).cached? kept emptyRequest = some (cutTo "606060") ∧
      answerOf ((member listingPipeline detailed true).compile ⟨"M.sol"⟩ ⟨"", false⟩ ⟨kept, ()⟩) =
        reference (member listingPipeline detailed true) (verdictWith none fun _ => .ok listing) kept
          ⟨"M.sol"⟩ ⟨"", false⟩ := by
  have reads : ∀ who, (member listingPipeline detailed who).reader.read listing =
      .ok (cutTo "606060") := by
    decide +kernel
  obtain ⟨kept, filled, first⟩ := first_answer (reads false)
  have again : listingPipeline.prepared kept ⟨"M.sol"⟩ ⟨"", false⟩ =
      .ok ⟨emptyRequest, Source.Names.empty.insert emptyName ⟨"M.sol"⟩⟩ :=
    two_names_prepared_after rfl filled (by simp)
  have now : (Moment.next listingPipeline detailed ⟨⟨twoNames, ()⟩, []⟩
      (.compile false ⟨"M.sol"⟩ ⟨"", false⟩)).world = ⟨kept, ()⟩ := by
    simp only [Moment.next, first, worldOf]
  have steady : SteadyPipeline listingPipeline ["c"] {emptyRequest}
      (verdictWith none fun _ => .ok listing) :=
    .alone fun _ _ world placed => ⟨world, rfl, spares_refl placed⟩
  have fits : ∀ request ∈ ({emptyRequest} : Set Request), RequestFits request := by
    rintro request rfl
    decide +kernel
  have apart : Distinguishes (Request.encode '' {emptyRequest}) := by
    rw [Set.image_singleton]
    exact Set.injOn_singleton _ _
  have regular : Regular listingPipeline detailed {emptyRequest} ["c"] ⟨⟨twoNames, ()⟩, []⟩
      ([.compile false ⟨"M.sol"⟩ ⟨"", false⟩] ++ [.compile true ⟨"M.sol"⟩ ⟨"", false⟩]) := by
    refine ⟨⟨only_request (two_names_prepared rfl), by simp [first, answerOf]⟩, ⟨?_, ?_⟩, trivial⟩
    · rw [now]
      exact only_request again
    · rw [now, second_answer filled]
      simp [answerOf]
  obtain ⟨-, keeper, -, -, own, -⟩ := answer_own_iff_cut_alike listingPipeline detailed
    (verdictWith none fun _ => .ok listing) {emptyRequest} ["c"] ⟨twoNames, ()⟩
    [.compile false ⟨"M.sol"⟩ ⟨"", false⟩] true ⟨"M.sol"⟩ ⟨"", false⟩ two_names_placed two_names_bare
    steady fits apart regular
  simp only [Moment.after, List.foldl_cons, List.foldl_nil, now] at own
  refine ⟨kept, first, second_hit filled, own.mpr (reference_eq_iff.mp ?_)⟩
  have comes : ∀ who, reference (member listingPipeline detailed who)
      (verdictWith none fun _ => .ok listing) kept ⟨"M.sol"⟩ ⟨"", false⟩ =
        .ok (cutTo "606060") := by
    intro who
    simp only [reference, prepared_member, again, verdictWith, reads, cut_restored]
  rw [comes, comes]

end Examples

end ContractBuild.SharedCache
