import ContractBuild.Proofs.CompileSteps
import ContractBuild.Proofs.ShownNames

/-! When a rejected source is reported as rejected. A response tells a rejection by its error alone,
and the error is what the compiler said without the white space around it. So a compiler that
rejects a source has to say something: if it does not, the response passes for that of an accepted
source without objects, and it is kept. -/
namespace ContractBuild.Rejections
open CacheChange CacheRoom CompileSteps ShownNames

variable {σ : Type} {pipeline : Pipeline σ} {entry : Path} {options : Options}
  {after : World σ} {prepared : Prepared} {output : CompilerOutput}

/-- A compilation reports a rejection: its response has an error and no objects, and nothing has
changed since the compiler answered, so nothing has been kept. -/
def Reports (result : EStateM.Result PipelineError (World σ) Response) (after : World σ) : Prop :=
  ∃ response, result = .ok response after ∧ response.isRejection = true ∧ response.objects = []

private theorem restore_rejected {names : Source.Names} (visible : Visible names) (text : String) :
    (Response.rejected text).restore names = Response.rejected (names.restore text) := by
  have silent := (restore_eq_empty_iff visible "").mpr rfl
  simp [Response.rejected, Response.restore, silent]

private theorem read_rejected (reader : OutputReader) (rejected : output.rejected = true) :
    reader.read output =
      .ok (Response.rejected (String.ofList (Text.trim output.text.toList))) := by
  rw [OutputReader.read, if_pos rejected]

/-- A rejection is reported exactly if the compiler said more than white space about it. If it did
not, the response is one without an error, and it is kept if it can be written. -/
theorem rejection_reported_iff (world : World σ)
    (solid : Solid world.workspace.files world.workspace.here)
    (made : pipeline.prepared world.workspace entry options = .ok prepared)
    (missed : pipeline.cached? world.workspace prepared.request = none)
    (sent : pipeline.dispatch prepared.request world = .ok output after)
    (rejected : output.rejected = true) :
    (Reports (pipeline.compile entry options world) after ↔ Text.trim output.text.toList ≠ []) ∧
      (Text.trim output.text.toList = [] →
        ∀ kept, pipeline.cache.put prepared.request.digest (Response.rejected "") ""
            after.workspace = .ok () kept →
          pipeline.compile entry options world =
            .ok (Response.rejected "") { after with workspace := kept }) := by
  have visible : Visible prepared.names := by
    unfold Pipeline.prepared at made
    split at made
    · rename_i prepared' made'
      obtain rfl := Except.ok.inj made
      exact prepared_visible solid made'
    · cases made
  have read := read_rejected pipeline.reader rejected
  by_cases said : Text.trim output.text.toList = []
  · have silent : (Response.rejected "").restore prepared.names = Response.rejected "" := by
      rw [restore_rejected visible, (restore_eq_empty_iff visible "").mpr rfl]
    have accepted : (Response.rejected "").isRejection = false := by decide
    rw [said, String.ofList_nil] at read
    have kept : ∀ kept, pipeline.cache.put prepared.request.digest (Response.rejected "") ""
        after.workspace = .ok () kept → pipeline.compile entry options world =
          .ok (Response.rejected "") { after with workspace := kept } := by
      intro kept put
      rw [compile_of_put world made missed sent read accepted put, silent]
    refine ⟨iff_of_false ?_ (by simp [said]), fun _ => kept⟩
    rintro ⟨response, answered, reported, -⟩
    cases put : pipeline.cache.put prepared.request.digest (Response.rejected "") ""
      after.workspace with
    | ok answer written =>
      obtain ⟨rfl, -⟩ := EStateM.Result.ok.inj ((kept written put).symm.trans answered)
      cases accepted.symm.trans reported
    | error cause written =>
      cases (compile_of_failed_put world made missed sent read accepted put).symm.trans answered
  · have reported : (Response.rejected (String.ofList (Text.trim output.text.toList))).isRejection =
        true := by
      simpa [Response.isRejection, Response.rejected, ← String.toList_eq_nil_iff] using said
    have answered := compile_of_rejection world made missed sent read reported
    rw [restore_rejected visible] at answered
    refine ⟨iff_of_true ⟨_, answered, ?_, rfl⟩ said, fun nothing => absurd nothing said⟩
    simpa [Response.isRejection, Response.rejected, restore_eq_empty_iff visible,
      ← String.toList_eq_nil_iff] using said

section Examples

/-- A service that rejects every source with the same text. -/
def rejectingService (text : String) : CompilerService where
  url := "http://localhost:8080"
  network _ _ := .ok ⟨CompilerService.rejectionStatus, "Unprocessable Entity", text⟩

/-- A pipeline with this service. -/
def rejectingPipeline (text : String) : Pipeline Unit where
  roots := []
  primary := (rejectingService text).toCompiler
  fallback := none
  reader := .default
  cache := smallCache

private theorem rejecting_sends (text : String) (request : Request) :
    (rejectingPipeline text).dispatch request ⟨twoNames, ()⟩ =
      .ok ⟨text, true⟩ ⟨twoNames, ()⟩ := rfl

private theorem rejecting_prepared (text : String) :
    (rejectingPipeline text).prepared twoNames ⟨"M.sol"⟩ ⟨"", false⟩ =
      .ok ⟨emptyRequest, Source.Names.empty.insert emptyName ⟨"M.sol"⟩⟩ := two_names_prepared rfl

private theorem rejecting_missed (text : String) :
    (rejectingPipeline text).cached? twoNames emptyRequest = none := two_names_missed rfl _

theorem two_names_solid : Solid twoNames.files twoNames.here := by
  intro above inside
  rw [List.prefix_nil.mp inside]
  rfl

/-- What a service says about a source that it rejects is reported. -/
theorem service_rejection_reported :
    (rejectingPipeline "no pragma\n").dispatch emptyRequest ⟨twoNames, ()⟩ =
        .ok ⟨"no pragma\n", true⟩ ⟨twoNames, ()⟩ ∧
      Reports ((rejectingPipeline "no pragma\n").compile ⟨"M.sol"⟩ ⟨"", false⟩ ⟨twoNames, ()⟩)
        ⟨twoNames, ()⟩ := by
  refine ⟨rejecting_sends _ _, ?_⟩
  refine (rejection_reported_iff ⟨twoNames, ()⟩ two_names_solid (rejecting_prepared _)
    (rejecting_missed _) (rejecting_sends _ _) rfl).1.mpr ?_
  decide

private theorem blank_kept :
    Artifact.decode? (keptForm (Response.rejected "") "") =
        some ⟨"", Codec.response (Response.rejected "")⟩ ∧
      Codec.readResponse? (Codec.response (Response.rejected "")) =
        some (Response.rejected "", []) := by
  decide +kernel

/-- A service that rejects a source with a blank line: the response does not say so, and from then
on it is what the cache has for the source. -/
theorem blank_rejection_kept :
    ∃ kept : Workspace,
      (rejectingPipeline " \n").dispatch emptyRequest ⟨twoNames, ()⟩ =
        .ok ⟨" \n", true⟩ ⟨twoNames, ()⟩ ∧
      (rejectingPipeline " \n").cached? twoNames emptyRequest = none ∧
      (rejectingPipeline " \n").compile ⟨"M.sol"⟩ ⟨"", false⟩ ⟨twoNames, ()⟩ =
        .ok (Response.rejected "") ⟨kept, ()⟩ ∧
      (Response.rejected "").isRejection = false ∧
      (rejectingPipeline " \n").cached? kept emptyRequest = some (Response.rejected "") := by
  obtain ⟨kept, put, filled⟩ := two_names_put emptyRequest.digest (Response.rejected "")
  have read : (rejectingPipeline " \n").reader.read ⟨" \n", true⟩ =
      .ok (Response.rejected "") := by
    rw [read_rejected _ rfl]
    decide
  have restored : (Response.rejected "").restore
      (Source.Names.empty.insert emptyName ⟨"M.sol"⟩) = Response.rejected "" := by
    decide +kernel
  have compiled : (rejectingPipeline " \n").compile ⟨"M.sol"⟩ ⟨"", false⟩ ⟨twoNames, ()⟩ =
      .ok _ ⟨kept, ()⟩ :=
    compile_of_put ⟨twoNames, ()⟩ (rejecting_prepared _) (rejecting_missed _)
      (rejecting_sends _ _) read (by decide) put
  refine ⟨kept, rejecting_sends _ _, rejecting_missed _, ?_, by decide, ?_⟩
  · rw [compiled, restored]
  · rw [Pipeline.cached?, rejectingPipeline, two_names_entry filled blank_kept.1 blank_kept.2]
    rfl

end Examples

end ContractBuild.Rejections
