import ContractBuild.Proofs.CompilerCalls
import ContractBuild.Proofs.OpenWays
import ContractBuild.Proofs.SourcesWritten

/-! What work on a request leaves on the disk. Each call of the system that writes sources or a
result for a digest works inside the directory of the digest: all that is different elsewhere is a
directory that had to be made on the way there. -/
namespace ContractBuild.ScratchWork
open CacheChange CachePlace CacheTransparency CompileSteps CompilerCalls FileTree OpenWays
open PathPieces PathRoute PathWalk SourcesSpared SourcesWritten WriterSteps WrittenFiles

section Relation
variable {tree middle after : FileTree} {there location : Location} {more : List String}

/-- A change works inside a location: what is different elsewhere is a directory that was made on
the way there. Links and directories stay where they are. -/
structure WorksIn (there : Location) (tree after : FileTree) : Prop where
  links : SameLinks tree after
  ways : KeepsWays tree after
  tidy : ∀ directory, (tree.children directory).Nodup → (after.children directory).Nodup
  elsewhere : ∀ location, (there <+: location → location = there) →
    after.get? location = tree.get? location ∨
      tree.get? location = none ∧ after.get? location = some .directory ∧ location <+: there

theorem works_refl (there : Location) (tree : FileTree) : WorksIn there tree tree where
  links _ _ := Iff.rfl
  ways := keeps_ways_refl tree
  tidy _ nodup := nodup
  elsewhere _ _ := Or.inl rfl

theorem works_trans (first : WorksIn there tree middle) (second : WorksIn there middle after) :
    WorksIn there tree after where
  links := same_links_trans first.links second.links
  ways := keeps_ways_trans first.ways second.ways
  tidy directory nodup := second.tidy directory (first.tidy directory nodup)
  elsewhere location outer := by
    rcases second.elsewhere location outer with same | ⟨absent, made, on⟩
    · rw [same]
      exact first.elsewhere location outer
    · rcases first.elsewhere location outer with same | ⟨-, made', -⟩
      · exact Or.inr ⟨same ▸ absent, made, on⟩
      · cases absent.symm.trans made'

/-- What works inside a location works inside those above it. -/
theorem works_outer (works : WorksIn (there ++ more) tree after) : WorksIn there tree after where
  links := works.links
  ways := works.ways
  tidy := works.tidy
  elsewhere location outer := by
    have above : there <+: there ++ more := List.prefix_append ..
    have outer' : there ++ more <+: location → location = there ++ more := by
      intro inside
      obtain rfl := outer (above.trans inside)
      exact above.eq_of_length_le inside.length_le
    rcases works.elsewhere location outer' with same | ⟨absent, made, on⟩
    · exact Or.inl same
    · rcases List.prefix_or_prefix_of_prefix on above with before | beyond
      · exact Or.inr ⟨absent, made, before⟩
      · obtain rfl := outer beyond
        exact Or.inr ⟨absent, made, List.prefix_rfl⟩

/-- On the way there, nothing but directories comes to be. -/
theorem works_still (works : WorksIn there tree after) (on : location <+: there)
    (open_ : ∀ node, tree.get? location = some node → node = .directory) :
    ∀ node, after.get? location = some node → node = .directory := by
  have now := works.elsewhere location fun inside => on.eq_of_length_le inside.length_le
  exact open_still (now.imp_right fun made => made.2.1) open_

end Relation

section Steps
variable {cache : Cache} {place : Location} {names : List String} {job : Job}
  {w middle after : Workspace} {stage stage' : Stage} {tree later : FileTree} {path : Path}

/-- The way to names below the root of a cache is open. -/
def Open (cache : Cache) (place : Location) (names : List String) (tree : FileTree) : Prop :=
  ∃ pieces, steps cache.root = "" :: pieces ∧ Leads tree (pieces ++ names) (place ++ names)

/-- Work inside the place of names or below it leaves the way to them open. -/
theorem open_later {there : Location} (works : WorksIn there tree later)
    (below : place ++ names <+: there) (open_ : Open cache place names tree) :
    Open cache place names later := by
  obtain ⟨pieces, own, leads⟩ := open_
  exact ⟨pieces, own,
    leads_later leads works.ways fun location on => works_still works (on.trans below)⟩

/-- A path on the way to a directory leads to where a part of the directory's path leads. -/
private theorem front_of_way {directory : Path} (onTheWay : OnTheWay directory path)
    {front : List String} {here location : Location} (before : front <+: path.pieces)
    (leads : route tree true maxLinks (if path.isAbsolute then [] else here) front =
      some location) :
    ∃ front, front <+: directory.pieces ∧
      route tree true maxLinks (if directory.isAbsolute then [] else here) front =
        some location := by
  induction onTheWay generalizing front with
  | own => exact ⟨front, before, leads⟩
  | above _ above ih =>
    obtain ⟨front, before, leads⟩ := front_of_parent above before leads
    exact ih before leads

/-- Making a directory on the way to names below the root of a cache. -/
theorem directory_works (open_ : Open cache place names w.files) (nonempty : names ≠ [])
    (plain : ∀ name ∈ names, Plain name) {here : Location}
    (onTheWay : OnTheWay (pathBelow cache.root names) path)
    (made : w.files.makeDirectory here path = .ok later) :
    WorksIn (place ++ names) w.files later := by
  have grown := make_directory_grown made
  refine ⟨same_links_of_grown grown, keeps_ways_of_grown grown, fun directory nodup => ?_,
    fun location _ => ?_⟩
  · unfold makeDirectory at made
    split at made
    · cases made
    · obtain rfl := Except.ok.inj made
      exact children_nodup_set nodup _ _
    · cases made
  · rcases grown location with same | ⟨absent, held⟩
    · exact Or.inl same
    · refine Or.inr ⟨absent, held, ?_⟩
      have differs : later.get? location ≠ w.files.get? location := by
        rw [absent, held]
        simp
      have ends := made_at_end made differs
      obtain ⟨front, before, leads⟩ := front_of_way onTheWay List.prefix_rfl ends
      obtain ⟨pieces, own, way⟩ := open_
      have whole := below_pieces nonempty plain cache.root
      rw [own, List.cons_append] at whole
      have absolute : (pathBelow cache.root names).isAbsolute = true :=
        (absolute_iff _).mpr ⟨_, by simp [nonempty], whole⟩
      rw [if_pos absolute] at leads
      rw [whole] at before
      rcases List.prefix_cons_iff.mp before with rfl | ⟨front, rfl, inner⟩
      · rw [route] at leads
        obtain rfl := Option.some.inj leads
        exact List.nil_prefix
      · rw [route_idle (by decide)] at leads
        exact leads_above way inner leads absent

/-- A location in a directory is not the directory's own, nor on the way to it. -/
private theorem outside_entry {there location : Location} {name : String}
    (outer : there <+: location → location = there) : location ≠ there ++ [name] := by
  rintro rfl
  have := outer (List.prefix_append ..)
  simp at this

/-- Each call of the system that a writer makes works in the directory that it writes to. -/
theorem advance_works (placed : Placed cache place w) (open_ : Open cache place names w.files)
    (nonempty : names ≠ []) (inside : Inside cache names job)
    (holds : Holds place names job w.process w.files stage)
    (step : Advance job (w, stage) (after, stage')) :
    WorksIn (place ++ names) w.files after.files := by
  have keeps : SameLinks w.files after.files ∧ KeepsWays w.files after.files := by
    by_cases final : stage' = .moved
    · subst final
      obtain ⟨number, -, confined, -⟩ := advance_moves placed inside holds step
      exact ⟨confined.links, confined.ways⟩
    · have confined := (advance_keeps placed inside holds step final).2
      exact ⟨confined.links, confined.ways⟩
  have plainFile : ∀ {name}, Plain name → ∀ other ∈ names ++ [name], Plain other := by
    intro name plain other among
    rcases List.mem_append.mp among with among | last
    · exact inside.plain other among
    · exact List.mem_singleton.mp last ▸ plain
  cases step with
  | makeDirectory onTheWay made =>
    rw [inside.directory] at onTheWay
    exact directory_works open_ nonempty inside.plain onTheWay made
  | name => exact works_refl _ _
  | @create _ number files location executable wrote found =>
    have hidden := (temporary_plain inside.named w.process number).1
    rw [Job.hidden, inside.directory, below_concat] at wrote
    obtain ⟨executable, rfl⟩ := write_below placed (by simp) (plainFile hidden) wrote
    refine ⟨keeps.1, keeps.2, fun directory nodup => children_nodup_set nodup _ _,
      fun location outer => Or.inl ?_⟩
    rw [← List.append_assoc, get?_set _ _ _ _ (by simp), if_neg (outside_entry outer)]
  | @extend _ number handle written chunk next =>
    obtain ⟨rfl, -, content⟩ := holds
    obtain ⟨executable, held⟩ := file_of_content content
    refine ⟨keeps.1, keeps.2, fun directory nodup => ?_, fun location outer => Or.inl ?_⟩
    · simp only [putThrough, held]
      exact children_nodup_set nodup _ _
    · simp only [putThrough, held]
      rw [hiddenPlace, ← List.append_assoc, get?_set _ _ _ _ (by simp),
        if_neg (outside_entry outer)]
  | @move _ number handle files moved =>
    have hidden := temporary_plain inside.named w.process number
    rw [Job.hidden, Job.file, inside.directory, below_concat, below_concat] at moved
    have different : names ++ [hiddenName job.name w.process number] ≠ names ++ [job.name] :=
      fun same => hidden.2 (List.singleton_inj.mp (List.append_cancel_left same))
    obtain ⟨node, -, rfl⟩ := move_below placed different (by simp) (by simp) (plainFile hidden.1)
      (plainFile inside.named) moved
    refine ⟨keeps.1, keeps.2, fun directory nodup =>
      children_nodup_set (children_nodup_erase nodup _) _ _, fun location outer => Or.inl ?_⟩
    rw [← List.append_assoc, ← List.append_assoc, get?_set _ _ _ _ (by simp),
      if_neg (outside_entry outer), get?_erase _ _ _ (by simp), if_neg (outside_entry outer)]

/-- So does a writer, wherever it stops. -/
theorem progress_works (placed : Placed cache place w) (open_ : Open cache place names w.files)
    (nonempty : names ≠ []) (inside : Inside cache names job)
    (progress : Progress job (w, .starting) (after, stage)) :
    WorksIn (place ++ names) w.files after.files := by
  have run : ∀ {point}, Progress job (w, .starting) point →
      WorksIn (place ++ names) w.files point.1.files ∧ Placed cache place point.1 ∧
        (point.2 ≠ .moved → Holds place names job point.1.process point.1.files point.2) := by
    intro point progress
    induction progress with
    | refl => exact ⟨works_refl _ _, placed, fun _ => trivial⟩
    | @tail before point _ step ih =>
      obtain ⟨middle, reached⟩ := before
      obtain ⟨after, next⟩ := point
      obtain ⟨works, placed, holds⟩ := ih
      have unmoved : reached ≠ .moved := by
        rintro rfl
        cases step
      have holds := holds unmoved
      have open_ := open_later works List.prefix_rfl open_
      have works := works_trans works (advance_works placed open_ nonempty inside holds step)
      by_cases final : next = .moved
      · subst final
        obtain ⟨number, -, confined, -⟩ := advance_moves placed inside holds step
        exact ⟨works, placed_of_confined placed confined, fun still => absurd rfl still⟩
      · obtain ⟨holds, confined⟩ := advance_keeps placed inside holds step final
        refine ⟨works, placed_of_confined placed confined, fun _ => ?_⟩
        exact confined.process ▸ holds
  exact (run progress).1

end Steps

section Operations
variable {cache : Cache} {place : Location} {names : List String} {digest : Digest}
  {w middle after : Workspace} {files : List (String × Source.IncludedFile)} {request : Request}

private theorem starting_works {job : Job} (open_ : Open cache place names w.files)
    (nonempty : names ≠ []) (plain : ∀ name ∈ names, Plain name)
    (own : job.directory = pathBelow cache.root names)
    (progress : Progress job (w, .starting) (after, .starting)) :
    WorksIn (place ++ names) w.files after.files := by
  have run : ∀ {point}, Progress job (w, .starting) point → point.2 = .starting →
      WorksIn (place ++ names) w.files point.1.files := by
    intro point progress
    induction progress with
    | refl => exact fun _ => works_refl _ _
    | tail _ step ih =>
      intro still
      cases step with
      | makeDirectory onTheWay made =>
        have works := ih rfl
        have open_ := open_later works List.prefix_rfl open_
        exact works_trans works (directory_works open_ nonempty plain (own ▸ onTheWay) made)
      | name => cases still
      | create => cases still
      | extend => cases still
      | move => cases still
  exact run progress rfl

/-- Writing sources works in the directory that they are written into, wherever it stops. -/
theorem writing_works (placed : Placed cache place w) (open_ : Open cache place names w.files)
    (nonempty : names ≠ []) (plain : ∀ name ∈ names, Plain name)
    (named : ∀ entry ∈ files, Plain entry.1)
    (writing : Writing (pathBelow cache.root names) files w after) :
    WorksIn (place ++ names) w.files after.files := by
  induction writing with
  | stop => exact works_refl _ _
  | make made _ ih =>
    have works := starting_works open_ nonempty plain rfl made
    have placed := placed_of_confined placed (starting_effect made)
    exact works_trans works (ih placed (open_later works List.prefix_rfl open_) named)
  | pass _ _ ih =>
    exact ih placed open_ fun entry among => named entry (List.mem_cons_of_mem _ among)
  | @write _ _ _ _ key file whole _ ih =>
    have inside : Inside cache names
        ⟨pathBelow cache.root names, key, Text.utf8 file.script.toList⟩ :=
      ⟨rfl, plain, named (key, file) (List.mem_cons_self ..)⟩
    have works := progress_works placed open_ nonempty inside whole
    have placed := placed_of_confined placed (progress_effect placed inside whole).1
    exact works_trans works (ih placed (open_later works List.prefix_rfl open_)
      fun entry among => named entry (List.mem_cons_of_mem _ among))
  | @cut _ _ _ key file stage part _ =>
    exact progress_works placed open_ nonempty
      ⟨rfl, plain, named (key, file) (List.mem_cons_self ..)⟩ part

/-- A put works in the directory of its digest, whether it succeeds or fails. -/
theorem put_works (placed : Placed cache place w) (open_ : Open cache place [digest.toHex] w.files)
    (response : Response) (version : String) :
    WorksIn (place ++ [digest.toHex]) w.files
      (leftBy (cache.put digest response version w)).files := by
  have inside : ∀ content, Inside cache [digest.toHex]
      ⟨cache.directory digest, Cache.resultName, content⟩ :=
    fun content => ⟨rfl, directory_plain digest, result_plain⟩
  cases done : cache.put digest response version w with
  | ok answer after =>
    obtain ⟨written, artifact⟩ := artifact_of_put done
    exact progress_works placed open_ (by simp) (inside _) (progress_of_write_artifact artifact)
  | error cause after =>
    rcases error_of_bind done with failed | ⟨path, written, -, ended⟩
    · obtain ⟨stage, -, part⟩ := progress_of_failed_artifact failed
      exact progress_works placed open_ (by simp) (inside _) part
    · cases ended

/-- A program that writes nothing leaves what was there once the sources were written. -/
theorem send_leaves {compiler : InstalledCompiler}
    (still : ∀ call w, (compiler.run call w).2 = w) (request : Request) (w : Workspace) :
    leftBy (compiler.send request w) =
      leftBy (InstalledCompiler.materialize request (compiler.cache.sources request.digest) w) := by
  cases done : InstalledCompiler.materialize request (compiler.cache.sources request.digest) w with
  | ok answer written =>
    rw [send_of_written done, left_by_heard, still]
    rfl
  | error error left =>
    rw [send_of_failed done]
    rfl

end Operations

section Compilations
variable {σ : Type} {pipeline : Pipeline σ} {compiler : InstalledCompiler} {entry : Path}
  {options : Options} {world last : World σ} {prepared : Prepared}

/-- After the answer of the compiler, nothing is changed but by a put. -/
private theorem outcome_leaves (pipeline : Pipeline σ) (prepared : Prepared)
    (answer : Except DispatchError CompilerOutput) (last : World σ) :
    (worldOf (outcome pipeline prepared answer last)).workspace = last.workspace ∨
      ∃ response : Response, (worldOf (outcome pipeline prepared answer last)).workspace =
        leftBy (pipeline.cache.put prepared.request.digest response response.version
          last.workspace) := by
  unfold outcome
  cases answer with
  | error error => exact Or.inl rfl
  | ok output =>
    dsimp only
    cases pipeline.reader.read output with
    | error error => exact Or.inl rfl
    | ok response =>
      dsimp only
      split
      · exact Or.inl rfl
      · right
        refine ⟨response, ?_⟩
        cases put : pipeline.cache.put prepared.request.digest response response.version
          last.workspace <;> rfl

/-- A compilation with one installed compiler whose program writes nothing writes the sources of a
request that is not in the cache, and, if they are written, nothing more but a result. -/
theorem compile_leaves (first : pipeline.primary = compiler.toCompiler)
    (alone : pipeline.fallback = none) (still : ∀ call w, (compiler.run call w).2 = w)
    (made : pipeline.prepared world.workspace entry options = .ok prepared)
    (missed : pipeline.cached? world.workspace prepared.request = none) :
    (worldOf (pipeline.compile entry options world)).workspace =
        leftBy (InstalledCompiler.materialize prepared.request
          (compiler.cache.sources prepared.request.digest) world.workspace) ∨
      ∃ written response, InstalledCompiler.materialize prepared.request
          (compiler.cache.sources prepared.request.digest) world.workspace = .ok () written ∧
        (worldOf (pipeline.compile entry options world)).workspace =
          leftBy (pipeline.cache.put prepared.request.digest response response.version
            written) := by
  have left : (worldOf (pipeline.dispatch prepared.request world)).workspace =
      leftBy (compiler.send prepared.request world.workspace) := by
    simp only [Pipeline.dispatch, first, alone, InstalledCompiler.toCompiler, Act.onDisk]
    cases compiler.send prepared.request world.workspace <;> rfl
  rw [send_leaves still] at left
  cases done : InstalledCompiler.materialize prepared.request
      (compiler.cache.sources prepared.request.digest) world.workspace with
  | error error unwritten =>
    left
    have failed : pipeline.dispatch prepared.request world =
        .error error { world with workspace := unwritten } := by
      simp only [Pipeline.dispatch, first, alone, InstalledCompiler.toCompiler, Act.onDisk,
        send_of_failed done, id]
    rw [compile_of_no_verdict world made missed failed]
    rfl
  | ok answer written =>
    rw [done] at left
    rw [compile_of_sent made missed (result_of_answer _)]
    rcases outcome_leaves pipeline prepared _ _ with same | ⟨response, put⟩
    · exact Or.inl (same.trans left)
    · exact Or.inr ⟨written, response, rfl, put.trans (by rw [left]; rfl)⟩

end Compilations

end ContractBuild.ScratchWork
