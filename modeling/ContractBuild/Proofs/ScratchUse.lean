import ContractBuild.Proofs.CacheMap
import ContractBuild.Proofs.ScratchWork

/-! What a scratch root has in it after compilations. It is missing at first and can be made; then
each compilation that comes to write sources makes a directory for its digest in it, and whatever
else is in it belongs to such a digest. Outside of it nothing is different but the directories that
lead there. -/
namespace ContractBuild.ScratchUse
open ByteForms CacheChange CacheFootprint CacheMap CachePlace CacheRoom CacheTransparency
open CompileSteps FileTree ImportTargets OpenWays PathPieces PathRoute PathWalk ScratchWork
open ShownNames SourcesSpared SourcesWritten WriterSteps WrittenFiles

variable {start files after : FileTree} {root : Path} {place location : Location} {w : Workspace}
  {digest : Digest} {digests : List Digest}

section Roots

/-- A root that is missing and can be made. The system takes its path; this leads by what is there
to a directory and goes on by names, each of which is a directory or free; and where the last name
leads, nothing is. -/
structure Vacant (files : FileTree) (root : Path) (place : Location) : Prop where
  accepted : Accepted root
  way : ∃ front base last outer, steps root = "" :: (front ++ last :: outer) ∧
    (∀ piece ∈ outer, piece = "") ∧ IsName last ∧ Leads files front base ∧ place = base ++ [last]
  absent : ∀ location, place <+: location → files.get? location = none

/-- The way to a vacant place is open. -/
theorem leads_to_place (vacant : Vacant files root place) :
    ∃ pieces, steps root = "" :: pieces ∧ Leads files pieces place := by
  obtain ⟨front, base, last, outer, own, blank, isName, leads, rfl⟩ := vacant.way
  have free : ∀ node, files.get? (base ++ [last]) = some node → node = .directory := by
    intro node there
    cases (vacant.absent _ List.prefix_rfl).symm.trans there
  exact ⟨_, own, leads_on leads (clear_closed (.name isName free (.here _)) blank)⟩

theorem absolute_of_vacant (vacant : Vacant files root place) : root.isAbsolute = true := by
  obtain ⟨front, base, last, outer, own, -⟩ := vacant.way
  rcases pieces_eq_steps root with same | same
  · exact (absolute_iff root).mpr ⟨_, by simp, same.trans own⟩
  · exact (absolute_iff root).mpr
      ⟨front ++ last :: outer ++ [""], by simp, by rw [same, own, List.cons_append]⟩

/-- A vacant root is a missing root of a cache, wherever a process works. -/
theorem missing_of_vacant (vacant : Vacant w.files root place) : Missing ⟨root⟩ place w := by
  obtain ⟨pieces, whole, open_⟩ := leads_to_place vacant
  have start : origin w root = [] := if_pos (absolute_of_vacant vacant)
  obtain ⟨front, base, last, outer, own, blank, isName, leads, rfl⟩ := vacant.way
  have whole' : '/' ∉ last.toList := by
    refine @separator_not_mem_pieces root last ?_
    rcases pieces_eq_steps root with same | same <;> simp [same, own]
  refine ⟨⟨⟨"" :: front, base, last, outer, own, ⟨isName.busy, isName.inner, whole'⟩, blank, ?_, rfl⟩,
    fun before location inside led within => ?_⟩, vacant.absent⟩
  · change route w.files true maxLinks (origin w root) ("" :: front) = some base
    rw [start, route_idle (by decide), leads_route leads]
  · have led : route w.files true maxLinks [] before = some location := start ▸ led
    have inside : before <+: "" :: pieces := whole ▸ inside
    -- What is in the place is free, so on the way to the place there is only the place itself.
    have on : location <+: base ++ [last] := by
      rcases List.prefix_cons_iff.mp inside with rfl | ⟨rest, rfl, inner⟩
      · rw [route] at led
        obtain rfl := Option.some.inj led
        exact List.nil_prefix
      · rw [route_idle (by decide)] at led
        exact leads_above open_ inner led (vacant.absent _ within)
    exact on.eq_of_length_le within.length_le

/-- A root stays vacant while nothing that was there is lost and its place stays empty. -/
theorem vacant_later (vacant : Vacant files root place) (ways : KeepsWays files after)
    (still : ∀ location, location <+: place →
      (∀ node, files.get? location = some node → node = .directory) →
        ∀ node, after.get? location = some node → node = .directory)
    (absent : ∀ location, place <+: location → after.get? location = none) :
    Vacant after root place := by
  obtain ⟨accepted, ⟨front, base, last, outer, own, blank, isName, leads, rfl⟩, -⟩ := vacant
  exact ⟨accepted, ⟨front, base, last, outer, own, blank, isName,
    leads_later leads ways fun location on => still location (on.trans (List.prefix_append ..)),
    rfl⟩, absent⟩

/-- A vacant root is not found. -/
theorem vacant_not_found (vacant : Vacant files root place) (here : Location) :
    files.lookup here root = .error .notFound := by
  obtain ⟨front, base, last, outer, own, -, isName, leads, rfl⟩ := vacant.way
  exact lookup_free vacant.accepted own isName leads (vacant.absent _ List.prefix_rfl) here

/-- In a vacant root there is no result for any request. -/
theorem vacant_not_cached {σ : Type} {pipeline : Pipeline σ} (own : pipeline.cache = ⟨root⟩)
    (vacant : Vacant w.files root place) (request : Request) :
    pipeline.cached? w request = none := by
  have placed : Placed pipeline.cache place w := own ▸ placed_of_missing (missing_of_vacant vacant)
  refine not_cached placed ?_
  rw [resultAt?, contentAt?, vacant.absent _ (artifact_within place _ _)]

end Roots

section Entries

/-- There is a root, and in it the directory of a digest with the one for its sources. -/
structure Entered (files : FileTree) (root : Path) (place : Location) (digest : Digest) : Prop where
  root : files.lookup [] root = .ok (place, .directory)
  own : files.get? (place ++ [digest.toHex]) = some .directory
  sources : files.get? (place ++ [digest.toHex, Cache.sourcesName]) = some .directory

theorem entered_later (ways : KeepsWays files after) (entered : Entered files root place digest) :
    Entered after root place digest where
  root := directory_later ways entered.root
  own := ways.directories _ entered.own
  sources := ways.directories _ entered.sources

/-- What files have become that had a vacant root at the start, after sources were written for some
digests. -/
structure Used (root : Path) (place : Location) (start : FileTree) (digests : List Digest)
    (files : FileTree) : Prop where
  works : WorksIn place start files
  present : ∀ digest ∈ digests, Entered files root place digest
  owned : ∀ location, place <+: location → files.get? location ≠ none →
    ∃ digest ∈ digests, location = place ∨ place ++ [digest.toHex] <+: location

theorem used_at_start (vacant : Vacant start root place) : Used root place start [] start where
  works := works_refl place start
  present _ inside := by cases inside
  owned location within there := absurd (vacant.absent location within) there

/-- Work in the directory of a digest that is there then. -/
theorem used_worked (used : Used root place start digests files)
    (works : WorksIn (place ++ [digest.toHex]) files after)
    (entered : Entered after root place digest) :
    Used root place start (digests ++ [digest]) after where
  works := works_trans used.works (works_outer works)
  present other inside := by
    rcases List.mem_append.mp inside with inside | itself
    · exact entered_later works.ways (used.present other inside)
    · exact List.mem_singleton.mp itself ▸ entered
  owned location within there := by
    by_cases beyond : place ++ [digest.toHex] <+: location
    · exact ⟨digest, by simp, Or.inr beyond⟩
    · rcases works.elsewhere location fun inside => absurd inside beyond with
        same | ⟨-, -, on⟩
      · obtain ⟨other, inside, owned⟩ := used.owned location within (same ▸ there)
        exact ⟨other, List.mem_append_left _ inside, owned⟩
      · refine ⟨digest, by simp, Or.inl ?_⟩
        obtain ⟨rest, rfl⟩ := within
        rcases List.prefix_cons_iff.mp ((List.prefix_append_right_inj place).mp on) with
          rfl | ⟨more, rfl, -⟩
        · exact List.append_nil _
        · exact absurd ⟨more, by simp⟩ beyond

/-- Before any sources are written the root is as vacant as it was. -/
theorem vacant_of_unused (vacant : Vacant start root place)
    (used : Used root place start [] files) : Vacant files root place := by
  refine vacant_later vacant used.works.ways (fun location on => works_still used.works on)
    fun location within => ?_
  by_contra there
  obtain ⟨digest, inside, -⟩ := used.owned location within there
  cases inside

/-- There are as many directories in the place as digests that sources were written for. -/
theorem count_of_used (vacant : Vacant start root place)
    (used : Used root place start digests files) :
    (files.children place).length = digests.toFinset.card := by
  have bare : start.children place = [] := by
    refine List.eq_nil_iff_forall_not_mem.mpr fun name inside => ?_
    exact (mem_children_iff _ _ _).mp inside (vacant.absent _ (List.prefix_append ..))
  refine count_of_digests (used.works.tidy place (by simp [bare])) (fun digest inside => ?_)
    fun name there => ?_
  · simp [(used.present digest (List.mem_toFinset.mp inside)).own]
  · obtain ⟨digest, inside, owned⟩ := used.owned _ (List.prefix_append ..) there
    exact ⟨digest, List.mem_toFinset.mpr inside, named_of_owned owned⟩

end Entries

section Ways

/-- The root of a cache stays in its place. -/
theorem placed_of_works (vacant : Vacant start root place) (works : WorksIn place start w.files) :
    Placed ⟨root⟩ place w :=
  placed_of_same_links w
    (placed_of_missing (w := { w with files := start }) (missing_of_vacant vacant)) works.links rfl

variable (vacant : Vacant start root place) (used : Used root place start digests w.files)
include vacant used

/-- There is no result for a request that no sources were written for. -/
theorem unused_not_cached {σ : Type} {pipeline : Pipeline σ} (own : pipeline.cache = ⟨root⟩)
    {request : Request} (new : request.digest ∉ digests) : pipeline.cached? w request = none := by
  refine not_cached (own ▸ placed_of_works vacant used.works) ?_
  have absent : w.files.get? (artifactPlace place request.digest Cache.resultName) = none := by
    by_contra there
    obtain ⟨digest, inside, itself | within⟩ := used.owned _ (artifact_within place _ _) there
    · simp [artifactPlace] at itself
    · have first := (List.prefix_append_right_inj place).mp within
      exact new (to_hex_injective (List.cons_prefix_cons.mp first).1 ▸ inside)
  rw [resultAt?, contentAt?, absent]

/-- The way to the directory of any digest stays open, and so does the one from there to its
sources. -/
private theorem way_open (digest : Digest) :
    ∃ pieces, steps root = "" :: pieces ∧
      Leads w.files (pieces ++ [digest.toHex]) (place ++ [digest.toHex]) ∧
      Clear w.files (place ++ [digest.toHex]) [Cache.sourcesName]
        (place ++ [digest.toHex] ++ [Cache.sourcesName]) := by
  obtain ⟨pieces, own, leads⟩ := leads_to_place vacant
  have leads := leads_later leads used.works.ways fun location on => works_still used.works on
  -- Whatever is there belongs to a digest, and that has directories.
  have entered : ∀ rest node, w.files.get? (place ++ digest.toHex :: rest) = some node →
      Entered w.files root place digest := by
    intro rest node there
    obtain ⟨other, inside, itself | within⟩ :=
      used.owned _ (List.prefix_append ..) (by rw [there]; simp)
    · simp at itself
    · have first := (List.prefix_append_right_inj place).mp within
      obtain rfl := to_hex_injective (List.cons_prefix_cons.mp first).1
      exact used.present _ inside
  have outer : ∀ node, w.files.get? (place ++ [digest.toHex]) = some node → node = .directory :=
    fun node there => Option.some.inj (there.symm.trans (entered [] node there).own)
  have inner : ∀ node, w.files.get? (place ++ [digest.toHex] ++ [Cache.sourcesName]) = some node →
      node = .directory := by
    intro node there
    rw [List.append_assoc] at there
    exact Option.some.inj (there.symm.trans (entered [_] node there).sources)
  exact ⟨pieces, own, leads_on leads (.name (to_hex_is_name digest) outer (.here _)),
    .name sources_fit.isName inner (.here _)⟩

private theorem own_open (digest : Digest) : Open ⟨root⟩ place [digest.toHex] w.files := by
  obtain ⟨pieces, own, leads, -⟩ := way_open vacant used digest
  exact ⟨pieces, own, leads⟩

private theorem sources_open (digest : Digest) :
    Open ⟨root⟩ place [digest.toHex, Cache.sourcesName] w.files := by
  obtain ⟨pieces, own, leads, clear⟩ := way_open vacant used digest
  have leads := leads_on leads clear
  rw [List.append_assoc, List.append_assoc] at leads
  exact ⟨pieces, own, leads⟩

omit vacant used in
private theorem sources_visible (root : Path) (digest : Digest) :
    (Cache.sources ⟨root⟩ digest).text ≠ "" := by
  have whole : (Cache.sources ⟨root⟩ digest).pieces =
      steps root ++ [digest.toHex, Cache.sourcesName] := (file_pieces ⟨root⟩ digest sources_plain).1
  intro blank
  have size := congrArg List.length whole
  simp [Path.pieces, blank, Text.split] at size

/-- The directory for the sources of a digest can be made, with those on the way to it, if the
system takes its path. -/
theorem makes_sources (accepted : Accepted (Cache.sources ⟨root⟩ digest)) :
    ∃ made, w.files.makeDirectories w.here (Cache.sources ⟨root⟩ digest) = (.ok (), made) ∧
      Entered made root place digest := by
  have plain := artifact_plain digest sources_plain
  obtain ⟨pieces, own, leads, clear⟩ := way_open vacant used digest
  have below : steps (Cache.sources ⟨root⟩ digest) =
      "" :: ((pieces ++ [digest.toHex]) ++ [Cache.sourcesName]) := by
    rw [Cache.sources, Cache.directory, steps_join sources_plain, steps_join (to_hex_plain digest),
      own]
    simp
  obtain ⟨made, done⟩ : ∃ made, w.files.makeDirectories w.here (Cache.sources ⟨root⟩ digest) =
      (.ok (), made) := makes_way accepted below sources_plain.busy leads clear
  have grown := make_directories_grown w.files w.here (Cache.sources ⟨root⟩ digest)
  rw [done] at grown
  have placed := placed_of_same_links { w with files := made }
    (placed_of_works vacant used.works) (same_links_of_grown grown) rfl
  obtain ⟨location, looked⟩ := directory_found (sources_visible root digest) done
  obtain ⟨found, own'⟩ := lookup_on_the_way placed vacant.accepted.nonempty plain looked
  refine ⟨made, done, ?_, own', ?_⟩
  · exact (lookup_absolute (absolute_of_vacant vacant) _).trans found
  · cases find_below placed (by simp) plain (find_of_lookup looked) with
    | taken there => exact there

/-- If the system does not take the path, nothing is made. -/
theorem sources_made (digest : Digest) :
    (∃ made, w.files.makeDirectories w.here (Cache.sources ⟨root⟩ digest) = (.ok (), made) ∧
        Entered made root place digest) ∨
      ∃ error, w.files.makeDirectories w.here (Cache.sources ⟨root⟩ digest) =
        (.error error, w.files) := by
  by_cases accepted : Accepted (Cache.sources ⟨root⟩ digest)
  · exact Or.inl (makes_sources vacant used accepted)
  · exact Or.inr (makes_nothing (sources_visible root digest) accepted)

/-- Writing the sources of a request works in the directory of its digest, which is there then. -/
theorem materialize_worked {request : Request} {made : FileTree} (plain : PlainFiles request)
    (done : w.files.makeDirectories w.here (Cache.sources ⟨root⟩ digest) = (.ok (), made))
    (entered : Entered made root place digest) :
    WorksIn (place ++ [digest.toHex]) w.files
        (leftBy (InstalledCompiler.materialize request (Cache.sources ⟨root⟩ digest) w)).files ∧
      Entered (leftBy (InstalledCompiler.materialize request (Cache.sources ⟨root⟩ digest) w)).files
        root place digest := by
  have placed := placed_of_works vacant used.works
  have open_ := sources_open vacant used digest
  have names := artifact_plain digest sources_plain
  have making := directories_made (DispatchError.materialize (Cache.sources ⟨root⟩ digest)) done
  have makes : Writing (Cache.sources ⟨root⟩ digest) [] w { w with files := made } :=
    .make (progress_of_make_directories ⟨Cache.sources ⟨root⟩ digest, "", []⟩ making) .stop
  have writes := writing_of_sources (Cache.sources ⟨root⟩ digest) request.includes.entries
    { w with files := made }
  have first := writing_works placed open_ (by simp) names (by simp) makes
  have second := writing_works (placed_of_same_links _ placed first.links rfl)
    (open_later first List.prefix_rfl open_) (by simp) names plain writes
  have whole : InstalledCompiler.materialize request (Cache.sources ⟨root⟩ digest) w =
      InstalledCompiler.writeSources (Cache.sources ⟨root⟩ digest) request.includes.entries
        { w with files := made } := bind_of_ok making _
  have works := works_trans first second
  rw [show place ++ [digest.toHex, Cache.sourcesName] =
    place ++ [digest.toHex] ++ [Cache.sourcesName] by simp] at works
  rw [whole]
  exact ⟨works_outer works, entered_later second.ways entered⟩

end Ways

section Compilations
variable {σ : Type} {pipeline : Pipeline σ} {compiler : InstalledCompiler} {entry : Path}
  {options : Options} {outside : σ}

/-- The digest of the request that a compilation starts to write the sources of: a request is made,
no cached result is used for it, and the directory for its sources is made. -/
def sourcesFor? (pipeline : Pipeline σ) (w : Workspace) (entry : Path) (options : Options) :
    Option Digest :=
  match pipeline.prepared w entry options with
  | .error _ => none
  | .ok prepared =>
    if (pipeline.cached? w prepared.request).isSome then none
    else
      match w.files.makeDirectories w.here (pipeline.cache.sources prepared.request.digest) with
      | (.ok (), _) => some prepared.request.digest
      | (.error _, _) => none

/-- A compilation that comes to write sources works in the directory of their digest, whether a result
is put there afterwards or not. -/
private theorem written_used {request : Request} {made : FileTree} {last : Workspace}
    (vacant : Vacant start root place) (used : Used root place start digests w.files)
    (plain : PlainFiles request)
    (done : w.files.makeDirectories w.here (Cache.sources ⟨root⟩ digest) = (.ok (), made))
    (entered : Entered made root place digest)
    (left : last =
        leftBy (InstalledCompiler.materialize request (Cache.sources ⟨root⟩ digest) w) ∨
      ∃ (written : Workspace) (response : Response),
        InstalledCompiler.materialize request (Cache.sources ⟨root⟩ digest) w = .ok () written ∧
          last = leftBy (Cache.put ⟨root⟩ digest response response.version written)) :
    Used root place start (digests ++ [digest]) last.files := by
  obtain ⟨works, entered⟩ := materialize_worked vacant used plain done entered
  rcases left with rfl | ⟨written, response, writes, rfl⟩
  · exact used_worked used works entered
  · rw [writes] at works entered
    have placed : Placed ⟨root⟩ place written :=
      placed_of_works vacant (works_trans used.works (works_outer works))
    have open_ := open_later works List.prefix_rfl (own_open vacant used digest)
    have put := put_works placed open_ response response.version
    exact used_worked used (works_trans works put) (entered_later put.ways entered)

/-- A compilation with an installed compiler whose program writes nothing adds the digest that it
writes the sources of, if there is one, and changes nothing otherwise. -/
theorem compile_used (vacant : Vacant start root place)
    (used : Used root place start digests w.files) (own : pipeline.cache = ⟨root⟩)
    (own' : compiler.cache = ⟨root⟩) (first : pipeline.primary = compiler.toCompiler)
    (alone : pipeline.fallback = none) (still : ∀ call w, (compiler.run call w).2 = w) :
    Used root place start (digests ++ (sourcesFor? pipeline w entry options).toList)
      (worldOf (pipeline.compile entry options ⟨w, outside⟩)).workspace.files := by
  unfold sourcesFor?
  cases made : pipeline.prepared w entry options with
  | error error =>
    rw [compile_of_unprepared ⟨w, outside⟩ made]
    simpa [worldOf] using used
  | ok prepared =>
    cases hit : pipeline.cached? w prepared.request with
    | some response =>
      rw [compile_of_hit ⟨w, outside⟩ made hit]
      simpa [hit, worldOf] using used
    | none =>
      have plain := prepared_plain (prepare_of_prepared made)
      have left := @compile_leaves _ _ _ _ _ ⟨w, outside⟩ _ first alone still made hit
      rw [own', own] at left
      simp only [hit, Option.isSome_none, Bool.false_eq_true, if_false, own]
      rcases sources_made vacant used prepared.request.digest with
        ⟨files, done, entered⟩ | ⟨error, failed⟩
      · simp only [done, Option.toList_some]
        exact written_used vacant used plain done entered left
      · have unwritten : InstalledCompiler.materialize prepared.request
            (Cache.sources ⟨root⟩ prepared.request.digest) w = .error _ w :=
          bind_of_error (directories_unmade _ failed) _
        simp only [failed, Option.toList_none, List.append_nil]
        rcases left with left | ⟨written, response, writes, -⟩
        · rw [left, unwritten]
          exact used
        · cases unwritten.symm.trans writes

end Compilations

section Clearing

/-- Nothing that was there at the start is lost. -/
theorem kept_of_works (vacant : Vacant start root place) (works : WorksIn place start files)
    (location : Location) (node : Node) (there : start.get? location = some node) :
    files.get? location = some node := by
  have outside : place <+: location → location = place := by
    intro within
    cases (vacant.absent location within).symm.trans there
  rcases works.elsewhere location outside with same | ⟨absent, -⟩
  · exact same.trans there
  · cases absent.symm.trans there

/-- A place is cleared: nothing is in it, and all else is as it was. -/
def Cleared (place : Location) (files after : FileTree) : Prop :=
  ∀ location, after.get? location = if place <+: location then none else files.get? location

/-- Clearing the cache counts the digests that sources were written for, and removes its place. -/
theorem clear_used (vacant : Vacant start root place)
    (used : Used root place start digests w.files) :
    ∃ after, Cache.clear ⟨root⟩ w = .ok digests.toFinset.card { w with files := after } ∧
      Cleared place w.files after := by
  cases digests with
  | nil =>
    have vacant := vacant_of_unused vacant used
    have unlisted : w.files.listDirectory w.here root = .error .notFound := by
      rw [listDirectory, vacant_not_found vacant]
    refine ⟨w.files, ?_, fun location => ?_⟩
    · simp only [Cache.clear, unlisted]
      rfl
    · split
      · exact vacant.absent location ‹_›
      · rfl
  | cons digest rest =>
    have entered := used.present digest (List.mem_cons_self ..)
    have found := (lookup_absolute (absolute_of_vacant vacant) w.here).symm.trans entered.root
    have inner : ∀ location, place <+: location → location ≠ [] := by
      obtain ⟨front, base, last, outer, -, -, -, -, rfl⟩ := vacant.way
      rintro location within rfl
      simp at within
    have named : endsInStep root = false := founded_ends_in_name
      (missing_of_vacant (w := { w with files := start }) vacant).toFounded
    refine ⟨w.files.prune place, ?_, fun location => ?_⟩
    · rw [clear_present (placed_of_works vacant used.works) named found, count_of_used vacant used]
    · rw [get_prune]
      by_cases within : place <+: location
      · rw [if_pos ⟨inner location within, within⟩, if_pos within]
      · rw [if_neg fun both => within both.2, if_neg within]

variable (vacant : Vacant start root place) (used : Used root place start digests files)
  (cleared : Cleared place files after)
include vacant used cleared

/-- After that all is as it was at the start, but for directories that were made above the root. -/
theorem restored_of_cleared (location : Location) :
    after.get? location = start.get? location ∨ start.get? location = none ∧
      after.get? location = some .directory ∧ location <+: place ∧ location ≠ place := by
  rw [cleared]
  by_cases within : place <+: location
  · rw [if_pos within]
    exact Or.inl (vacant.absent location within).symm
  · rw [if_neg within]
    rcases used.works.elsewhere location fun inside => absurd inside within with
      same | ⟨absent, made, on⟩
    · exact Or.inl same
    · refine Or.inr ⟨absent, made, on, ?_⟩
      rintro rfl
      exact within List.prefix_rfl

theorem kept_of_cleared (location : Location) (node : Node)
    (there : start.get? location = some node) : after.get? location = some node := by
  rcases restored_of_cleared vacant used cleared location with same | ⟨absent, -⟩
  · exact same.trans there
  · cases absent.symm.trans there

/-- The root is as vacant as it was at the start. -/
theorem vacant_of_cleared : Vacant after root place := by
  have kept := kept_of_cleared vacant used cleared
  have restored := restored_of_cleared vacant used cleared
  exact vacant_later vacant (keeps_ways_of_kept kept)
    (fun location _ => open_still ((restored location).imp_right fun made => made.2.1))
    fun location within => by rw [cleared, if_pos within]

end Clearing

end ContractBuild.ScratchUse
