import ContractBuild.Compiler.Installed
import ContractBuild.Proofs.CacheChange

/-! The installed compiler works beside the results of a cache. Whatever it writes for a request,
and wherever it fails, it writes below the directory for the sources of the request; so no result is
touched, unless the program that it runs does so. -/
namespace ContractBuild.SourcesSpared
open CacheChange CachePlace FileTree PathRoute

variable {ε α β : Type} {cache : Cache} {place : Location} {w : Workspace}

/-- The workspace that an operation leaves. -/
def leftBy : EStateM.Result ε Workspace α → Workspace
  | .ok _ after => after
  | .error _ after => after

/-- An operation spares a cache, whether it succeeds or fails. -/
def Sparing (cache : Cache) (place : Location) (act : Disk ε α) : Prop :=
  ∀ w, Placed cache place w → Spares cache place w (leftBy (act w))

section Operations

theorem sparing_pure (value : α) : Sparing cache place (pure value : Disk ε α) :=
  fun _ placed => spares_refl placed

theorem sparing_throw (error : ε) : Sparing cache place (throw error : Disk ε α) :=
  fun _ placed => spares_refl placed

theorem sparing_get : Sparing cache place (get : Disk ε Workspace) :=
  fun _ placed => spares_refl placed

theorem sparing_bind {first : Disk ε α} {rest : α → Disk ε β} (spares : Sparing cache place first)
    (spares' : ∀ value, Sparing cache place (rest value)) :
    Sparing cache place (first >>= rest) := by
  intro w placed
  have before := spares w placed
  change Spares cache place w (leftBy (EStateM.bind first rest w))
  unfold EStateM.bind
  cases done : first w with
  | ok value middle =>
    rw [done] at before
    exact spares_trans before (spares' value middle before.placed)
  | error error middle =>
    rw [done] at before
    exact before

theorem sparing_make_directories (fail : FileError → ε) (path : Path) :
    Sparing cache place (Disk.makeDirectories fail path) := by
  intro w placed
  have spares := spares_grown placed (make_directories_grown w.files w.here path)
  unfold Disk.makeDirectories
  split
  · rename_i files made
    rw [made] at spares
    exact spares
  · rename_i error files made
    rw [made] at spares
    exact spares

/-- Names below the root of a cache that lead to no result. -/
structure Aside (names : List String) : Prop where
  nonempty : names ≠ []
  plain : ∀ name ∈ names, Plain name
  apart : ∀ digest : Digest, names ≠ [digest.toHex, Cache.resultName]

private theorem aside_inner {names : List String} (aside : Aside names) : place ++ names ≠ [] := by
  simp [aside.nonempty]

private theorem aside_apart {names : List String} (aside : Aside names) (digest : Digest) :
    place ++ names ≠ artifactPlace place digest Cache.resultName := by
  simpa [artifactPlace] using aside.apart digest

theorem sparing_write {names : List String} (aside : Aside names) (fail : FileError → ε)
    (content : Bytes) :
    Sparing cache place (Disk.write fail (pathBelow cache.root names) content) := by
  intro w placed
  unfold Disk.write Disk.change
  split
  · rename_i files done
    obtain ⟨executable, rfl⟩ := write_below placed aside.nonempty aside.plain done
    exact spares_set placed (aside_inner aside) (List.prefix_append ..) (by simp)
      (aside_apart aside)
  · exact spares_refl placed

theorem sparing_move {old new : List String} (different : old ≠ new) (aside : Aside old)
    (aside' : Aside new) (fail : FileError → ε) :
    Sparing cache place
      (Disk.moveFile fail (pathBelow cache.root old) (pathBelow cache.root new)) := by
  intro w placed
  unfold Disk.moveFile Disk.change
  split
  · rename_i files done
    obtain ⟨node, there, rfl⟩ := move_below placed different aside.nonempty aside'.nonempty
      aside.plain aside'.plain done
    have erased := spares_erase placed (aside_inner aside) (List.prefix_append place old)
    have solid : ∀ target, node ≠ .link target := by
      rintro target rfl
      exact placed.linkless _ target (List.prefix_append ..) there
    exact spares_trans erased (spares_set erased.placed (aside_inner aside')
      (List.prefix_append ..) solid (aside_apart aside'))
  · exact spares_refl placed

private theorem aside_deep {front : List String} {name : String} (deep : front.length = 2)
    (plain : ∀ other ∈ front, Plain other) (plain' : Plain name) : Aside (front ++ [name]) where
  nonempty := by simp
  plain other inside := by
    rcases List.mem_append.mp inside with inside | last
    · exact plain other inside
    · rw [List.mem_singleton.mp last]
      exact plain'
  apart digest same := by
    have lengths := congrArg List.length same
    simp [deep] at lengths

/-- Giving out a temporary name spares the cache, and what follows has a plain name that is new. -/
private theorem sparing_temporary {name : String} (plain : Plain name) {rest : String → Disk ε β}
    (spares : ∀ temporary, Plain temporary → temporary ≠ name →
      Sparing cache place (rest temporary)) :
    Sparing cache place (Disk.temporaryName name >>= rest) := by
  intro w placed
  obtain ⟨temporaryPlain, different⟩ := temporary_plain plain w.process w.issued
  have issued : Spares cache place w { w with issued := w.issued + 1 } :=
    ⟨placed_of_same_links _ placed (fun _ _ => Iff.rfl) rfl, fun _ _ there => there⟩
  exact spares_trans issued (spares _ temporaryPlain different _ issued.placed)

theorem sparing_write_whole {front : List String} (deep : front.length = 2)
    (plain : ∀ other ∈ front, Plain other) {name : String} (plain' : Plain name)
    (fail : Path → FileError → ε) (content : Bytes) :
    Sparing cache place (Disk.writeWhole fail (pathBelow cache.root front) name content) := by
  unfold Disk.writeWhole
  apply sparing_temporary plain'
  intro temporary temporaryPlain different
  simp only [below_concat]
  have old := aside_deep deep plain temporaryPlain
  have new := aside_deep deep plain plain'
  apply sparing_bind (sparing_write old _ content)
  intro _
  apply sparing_bind (sparing_move (by simpa using different) old new _)
  intro _
  exact sparing_pure _

end Operations

section Compiler
variable {compiler : InstalledCompiler} {request : Request}

/-- The names of a request's files stand for one entry of a directory each. -/
def PlainFiles (request : Request) : Prop :=
  ∀ entry ∈ request.includes.entries, Plain entry.1

private theorem sources_below (cache : Cache) (digest : Digest) :
    cache.sources digest = pathBelow cache.root [digest.toHex, Cache.sourcesName] := rfl

private theorem sources_names_plain (digest : Digest) :
    ∀ name ∈ [digest.toHex, Cache.sourcesName], Plain name :=
  artifact_plain digest sources_plain

private theorem sparing_write_sources {front : List String} (deep : front.length = 2)
    (plain : ∀ other ∈ front, Plain other) (files : List (String × Source.IncludedFile))
    (named : ∀ entry ∈ files, Plain entry.1) :
    Sparing cache place (InstalledCompiler.writeSources (pathBelow cache.root front) files) := by
  induction files with
  | nil => exact sparing_pure _
  | cons entry files ih =>
    obtain ⟨key, file⟩ := entry
    have rest := ih fun other inside => named other (List.mem_cons_of_mem _ inside)
    have whole : Sparing cache place (Disk.writeWhole DispatchError.materialize
        (pathBelow cache.root front) key (Text.utf8 file.script.toList)) :=
      sparing_write_whole deep plain (named (key, file) (by simp)) _ _
    unfold InstalledCompiler.writeSources
    apply sparing_bind sparing_get
    intro now
    split
    · exact rest
    · apply sparing_bind whole
      intro _
      exact rest

/-- Writing the sources of a request spares the cache, wherever it fails. -/
theorem sparing_materialize (cache : Cache) (place : Location) (plain : PlainFiles request) :
    Sparing cache place
      (InstalledCompiler.materialize request (cache.sources request.digest)) := by
  unfold InstalledCompiler.materialize
  apply sparing_bind (sparing_make_directories _ _)
  intro _
  rw [sources_below]
  exact sparing_write_sources rfl (sources_names_plain request.digest) _ plain

/-- The program that a compiler runs spares the cache. -/
def Harmless (compiler : InstalledCompiler) (place : Location) : Prop :=
  ∀ call w, Placed compiler.cache place w → Spares compiler.cache place w (compiler.run call w).2

private theorem sparing_execute (harmless : Harmless compiler place) (directory : Option Path)
    (arguments : List String) :
    Sparing compiler.cache place (compiler.execute directory arguments) := by
  intro w placed
  have spares := harmless ⟨compiler.binary, arguments, directory, compiler.timeout⟩ w placed
  unfold InstalledCompiler.execute
  split <;> rename_i ran <;> rw [ran] at spares <;> exact spares

/-- Compiling a request with an installed compiler spares the cache if the program does: the files
of the request are written beside the results. -/
theorem sparing_send (harmless : Harmless compiler place) (plain : PlainFiles request) :
    Sparing compiler.cache place (compiler.send request) := by
  unfold InstalledCompiler.send
  apply sparing_bind (sparing_materialize compiler.cache place plain)
  intro _
  apply sparing_bind (sparing_execute harmless _ _)
  rintro ⟨status, output⟩
  dsimp only
  split
  · exact sparing_pure _
  · split
    · exact sparing_pure _
    · exact sparing_throw _

end Compiler

end ContractBuild.SourcesSpared
