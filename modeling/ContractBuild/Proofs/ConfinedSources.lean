import ContractBuild.Proofs.SourcesSeen

/-! Which names a source may have for its file to stay in the directory of its request. A name may go
down and come up again; it may not start at the root, and neither it nor the name with a dot before it,
which its temporary file has, may come up further than the directory of the digest. The names that the
builder of requests gives go nowhere at all. -/
namespace ContractBuild.ConfinedSources
open CacheChange CacheGrowth CachePlace CacheRoom CompileSteps FileTree PathPieces PathRoute PathWalk
open SourcesSeen SourcesSpared SourcesWritten WriterSteps WrittenFiles

section Names
variable {depth : Nat} {front pieces : List String} {last key : String}

/-- Whether pieces that are followed from some depth below a directory never lead out of it. -/
def stays : (depth : Nat) → List String → Bool
  | _, [] => true
  | depth, piece :: rest =>
    if Path.isIdle piece then stays depth rest
    else if piece = ".." then depth != 0 && stays (depth - 1) rest
    else stays (depth + 1) rest

theorem stays_concat (down : last ≠ "..") (before : stays depth front = true) :
    stays depth (front ++ [last]) = true := by
  fun_induction stays depth front with
  | case1 depth => simp [stays, down]
  | case2 depth piece rest idle ih =>
    rw [List.cons_append, stays, if_pos idle]
    exact ih before
  | case3 depth rest busy ih =>
    rw [List.cons_append, stays, if_neg busy, if_pos rfl]
    simp only [Bool.and_eq_true] at before ⊢
    exact ⟨before.1, ih before.2⟩
  | case4 depth piece rest busy inner ih =>
    rw [List.cons_append, stays, if_neg busy, if_neg inner]
    exact ih before

/-- A name below the directory for the sources of a digest that leads nowhere out of the directory of the
digest. -/
structure Steady (name : String) : Prop where
  relative : (Path.mk name).isAbsolute = false
  stays : stays 1 (Path.mk name).pieces = true

/-- A name of a source that keeps the source and its temporary files in the directory of the digest. -/
structure Kept (key : String) : Prop where
  steady : Steady key
  hidden : ConfinedSources.stays 1 (Path.mk ("." ++ key)).pieces.dropLast = true

private theorem join_behind (front : List (List Char)) (last suffix : List Char) :
    Text.join ['/'] (front ++ [last]) ++ suffix = Text.join ['/'] (front ++ [last ++ suffix]) := by
  induction front with
  | nil => rfl
  | cons field front ih =>
    cases front with
    | nil => simp [Text.join]
    | cons next front =>
      simp only [List.cons_append, Text.join, List.append_assoc] at ih ⊢
      rw [ih]

/-- What has no slash and is written behind a path is written behind its last piece. -/
theorem pieces_behind (path : String) {suffix : String} (whole : '/' ∉ suffix.toList) :
    ∃ last, (Path.mk (path ++ suffix)).pieces =
      (Path.mk path).pieces.dropLast ++ [last ++ suffix] := by
  obtain ⟨front, last, fields⟩ := (List.eq_nil_or_concat' _).resolve_left
    (Text.split_ne_nil (· == '/') path.toList)
  have back := Text.join_split '/' path.toList
  have absent : ∀ field ∈ front ++ [last ++ suffix.toList], '/' ∉ field := by
    intro field among
    have inside : ∀ field ∈ front ++ [last], '/' ∉ field := fun field among =>
      not_mem_of_mem_split (fields ▸ among)
    rcases List.mem_append.mp among with among | last
    · exact inside field (List.mem_append_left _ among)
    · rw [List.mem_singleton.mp last, List.mem_append, not_or]
      exact ⟨inside _ (by simp), whole⟩
  refine ⟨String.ofList last, ?_⟩
  simp only [Path.pieces, String.toList_append]
  rw [fields] at back ⊢
  rw [← back, join_behind, split_join '/' _ (by simp) absent]
  simp

/-- The temporary files of a source that is kept in place are kept there too. -/
theorem hidden_steady (kept : Kept key) (process number : Nat) :
    Steady (hiddenName key process number) := by
  generalize named : "." ++ toString process ++ "." ++ toString number ++ ".tmp" = suffix
  have own : hiddenName key process number = "." ++ key ++ suffix := by
    rw [← named]
    simp [hiddenName, toString, String.append_assoc]
  -- The numbers are written in every temporary name, also in those of plain names.
  have whole : '/' ∉ suffix.toList := by
    have plain := (temporary_plain result_plain process number).1.whole
    rw [← named]
    simp only [toString, String.toList_append, List.mem_append, not_or] at plain ⊢
    exact ⟨⟨⟨⟨by decide, plain.1.1.1.2⟩, by decide⟩, plain.1.2⟩, by decide⟩
  have long : 2 < suffix.toList.length := by
    rw [← named]
    have tail : ".tmp".toList.length = 4 := by decide
    simp only [String.toList_append, List.length_append, tail]
    omega
  obtain ⟨last, pieces⟩ := pieces_behind ("." ++ key) whole
  refine ⟨?_, ?_⟩
  · simp [own, Path.isAbsolute]
  · rw [own, pieces]
    refine stays_concat (fun up => ?_) kept.hidden
    have size := congrArg (fun text => text.toList.length) up
    simp only [String.toList_append, List.length_append] at size
    have two : "..".toList.length = 2 := by decide
    omega

end Names

section Ways
variable {cache : Cache} {digest : Digest} {base location : Location} {w after : Workspace}
  {tree : FileTree} {follow : Bool} {links : Nat} {name : String} {node : Node}

/-- Where there are no links, pieces that stay in a directory lead to something in it. -/
theorem route_stays {inner : Location} {pieces : List String}
    (linkless : ∀ location target, base <+: location → tree.get? location ≠ some (.link target))
    (inside : stays inner.length pieces = true) :
    ∃ ending, base <+: ending ∧ route tree follow links (base ++ inner) pieces = some ending := by
  induction pieces generalizing inner with
  | nil => exact ⟨base ++ inner, List.prefix_append .., by rw [route]⟩
  | cons piece rest ih =>
    by_cases idle : Path.isIdle piece = true
    · rw [stays, if_pos idle] at inside
      rw [route_idle idle]
      exact ih inside
    rw [stays, if_neg idle] at inside
    by_cases up : piece = ".."
    · subst up
      simp only [↓reduceIte, Bool.and_eq_true, bne_iff_ne, ne_eq] at inside
      have some : inner ≠ [] := fun none => inside.1 (by simp [none])
      rw [route_up, List.dropLast_append_of_ne_nil some]
      exact ih (by rw [List.length_dropLast]; exact inside.2)
    · rw [if_neg up] at inside
      have solid : ∀ target, tree.get? (base ++ inner ++ [piece]) ≠ some (.link target) :=
        fun target => linkless _ target ((List.prefix_append ..).trans (List.prefix_append ..))
      rw [route_on (by simpa using idle) up solid, List.append_assoc]
      exact ih (by rw [List.length_append]; exact inside)

/-- The directory of a digest is at a location, and no link is there or inside. -/
structure Enclosed (cache : Cache) (digest : Digest) (base : Location) (w : Workspace) : Prop where
  leads : route w.files true maxLinks (origin w cache.root) (steps cache.root ++ [digest.toHex]) =
    some base
  linkless : ∀ location target, base <+: location → w.files.get? location ≠ some (.link target)

theorem enclosed_of_placed {place : Location} (placed : Placed cache place w) (digest : Digest) :
    Enclosed cache digest (place ++ [digest.toHex]) w where
  leads := route_inside placed (directory_plain digest) (Or.inr rfl)
  linkless location target inside :=
    placed.linkless location target ((List.prefix_append ..).trans inside)

theorem enclosed_of_same_links (enclosed : Enclosed cache digest base w)
    (same : SameLinks w.files after.files) (here : after.here = w.here) :
    Enclosed cache digest base after where
  leads := by
    rw [route_of_same_links same, origin, here]
    exact enclosed.leads
  linkless location target inside there :=
    enclosed.linkless location target inside ((same location target).mp there)

/-- A steady name of a source leads to something in the directory of the digest. -/
theorem source_leads (enclosed : Enclosed cache digest base w) (steady : Steady name)
    (follow : Bool) : ∃ ending, base <+: ending ∧
      route w.files follow maxLinks
        (if ((cache.sources digest).join ⟨name⟩).isAbsolute then [] else w.here)
        ((cache.sources digest).join ⟨name⟩).pieces = some ending := by
  have below : steps (cache.sources digest) =
      steps cache.root ++ [digest.toHex] ++ [Cache.sourcesName] := by
    rw [List.append_assoc]
    exact steps_below (artifact_plain digest sources_plain) cache.root
  have absolute : (cache.sources digest).isAbsolute = cache.root.isAbsolute :=
    below_absolute (artifact_plain digest sources_plain) cache.root
  rw [absolute_join _ _ steady.relative, absolute, pieces_join _ _ steady.relative, below,
    List.append_assoc]
  rcases route_append w.files maxLinks (origin w cache.root) (steps cache.root ++ [digest.toHex])
    with ⟨reached, left, -, led, onward⟩ | ⟨missed, -⟩
  · obtain rfl := Option.some.inj (led.symm.trans enclosed.leads)
    have inside : stays ([] : Location).length (Cache.sourcesName :: (Path.mk name).pieces) = true := by
      rw [stays, if_neg (by decide), if_neg (by decide)]
      exact steady.stays
    obtain ⟨ending, within, leads⟩ := route_stays enclosed.linkless inside
    rw [List.append_nil] at leads
    exact ⟨ending, within,
      (onward follow _ (Or.inl ⟨Cache.sourcesName, by simp, by decide⟩)).trans leads⟩
  · cases missed.symm.trans enclosed.leads

/-- What is found under a steady name of a source is in the directory of the digest. -/
theorem found_inside (enclosed : Enclosed cache digest base w) (steady : Steady name)
    (found : w.files.find follow w.here ((cache.sources digest).join ⟨name⟩) =
      .ok (.taken location node)) : base <+: location := by
  obtain ⟨ending, within, leads⟩ := source_leads enclosed steady follow
  exact Option.some.inj ((route_of_walk (walk_of_find found)).symm.trans leads) ▸ within

theorem free_inside {slash : Bool} (enclosed : Enclosed cache digest base w) (steady : Steady name)
    (found : w.files.find follow w.here ((cache.sources digest).join ⟨name⟩) =
      .ok (.free location slash)) : base <+: location := by
  obtain ⟨ending, within, leads⟩ := source_leads enclosed steady follow
  exact Option.some.inj ((route_of_free (walk_of_find found)).1.symm.trans leads) ▸ within

end Ways

section Changes
variable {ε α β : Type} {cache : Cache} {digest : Digest} {base : Location}
  {w middle after : Workspace} {name old new key : String} {content : Bytes} {files : FileTree}
  {changed : Location → Prop}

theorem enclosed_of_confined (enclosed : Enclosed cache digest base w)
    (confined : Confined changed w after) : Enclosed cache digest base after :=
  enclosed_of_same_links enclosed confined.links confined.here

theorem write_inside (enclosed : Enclosed cache digest base w) (steady : Steady name)
    (done : w.files.write w.here ((cache.sources digest).join ⟨name⟩) content = .ok files) :
    Confined (base <+: ·) w { w with files } := by
  unfold FileTree.write at done
  split at done
  · rename_i location before executable came
    obtain rfl := Except.ok.inj done
    have noWay : NoWay w.files location :=
      Or.inr ⟨before, executable, taken_there (by simp) (walk_of_find came)⟩
    refine confined_mono (confined_set noWay content executable) ?_
    rintro _ rfl
    exact found_inside enclosed steady came
  · cases done
  · rename_i location came
    obtain rfl := Except.ok.inj done
    refine confined_mono (confined_set (Or.inl (find_free came).1) content false) ?_
    rintro _ rfl
    exact free_inside enclosed steady came
  · cases done
  · cases done

/-- What is moved is a file, since there are no links. -/
private theorem moved_file (enclosed : Enclosed cache digest base w) (steady : Steady old) {path : Path}
    (done : w.files.moveFile w.here ((cache.sources digest).join ⟨old⟩) path = .ok files) :
    ∃ source content executable, base <+: source ∧
      w.files.lookup w.here ((cache.sources digest).join ⟨old⟩) =
        .ok (source, .file content executable) := by
  obtain ⟨source, node, found, -⟩ := move_ok done
  have within := found_inside enclosed steady found
  have looked : w.files.lookup w.here ((cache.sources digest).join ⟨old⟩) = .ok (source, node) := by
    rw [lookup, found]
  cases node with
  | file content executable => exact ⟨source, content, executable, within, looked⟩
  | directory =>
    rw [moveFile, looked] at done
    cases done
  | link target =>
    exact absurd (taken_there (by simp) (walk_of_find found)) (enclosed.linkless _ target within)

theorem move_inside (enclosed : Enclosed cache digest base w) (steady : Steady old)
    (steady' : Steady new)
    (done : w.files.moveFile w.here ((cache.sources digest).join ⟨old⟩)
      ((cache.sources digest).join ⟨new⟩) = .ok files) :
    Confined (base <+: ·) w { w with files } := by
  obtain ⟨source, content, executable, within, held⟩ := moved_file enclosed steady done
  have unlinked : Unlinked w.files w.here ((cache.sources digest).join ⟨new⟩) := by
    intro location target leads
    obtain ⟨ending, inside, own⟩ := source_leads enclosed steady' false
    exact enclosed.linkless _ target (Option.some.inj (own.symm.trans leads) ▸ inside)
  obtain ⟨ways, -⟩ := move_found done held unlinked
  have inner := inner_of_no_way (Or.inr ⟨content, executable, get?_of_lookup held⟩)
  obtain ⟨source', node, found, moved, -⟩ := move_ok done
  obtain ⟨rfl, rfl⟩ := Spot.taken.inj (Except.ok.inj (found.symm.trans (find_of_lookup held)))
  have replaced : ∀ place, base <+: place → place ≠ [] →
      files = (w.files.erase source').set place (.file content executable) →
      Confined (base <+: ·) w { w with files } := by
    rintro place inside proper rfl
    refine confined_mono (confined_move inner proper (fun target => enclosed.linkless _ target within)
      (fun target => enclosed.linkless _ target inside) ways) ?_
    rintro _ (rfl | rfl)
    · exact within
    · exact inside
  rcases moved with ⟨place, slash, came, same⟩ | ⟨place, passed, came, solid, same⟩
  · exact replaced place (free_inside enclosed steady' came) (find_free came).2 same
  · split at same
    · subst same
      exact confined_refl _ _
    · refine replaced place (found_inside enclosed steady' came) ?_ same
      rintro rfl
      exact solid (Option.some.inj (taken_there solid (walk_of_find came))).symm

end Changes

section Operations
variable {ε α β : Type} {cache : Cache} {digest : Digest} {base : Location} {w : Workspace}
  {key : String}

/-- An operation changes no file outside the directory of a digest, whether it succeeds or fails. -/
def Staying (cache : Cache) (digest : Digest) (base : Location) (act : Disk ε α) : Prop :=
  ∀ w, Enclosed cache digest base w → Confined (base <+: ·) w (leftBy (act w))

theorem staying_pure (value : α) : Staying cache digest base (pure value : Disk ε α) :=
  fun _ _ => confined_refl ..

theorem staying_bind {first : Disk ε α} {rest : α → Disk ε β}
    (stays : Staying cache digest base first)
    (stays' : ∀ value, Staying cache digest base (rest value)) :
    Staying cache digest base (first >>= rest) := by
  intro w enclosed
  have before := stays w enclosed
  cases done : first w with
  | ok value middle =>
    rw [done] at before
    rw [bind_of_ok done]
    exact confined_trans before (stays' value middle (enclosed_of_confined enclosed before))
  | error error left =>
    rw [done] at before
    rw [bind_of_error done]
    exact before

theorem staying_change {fail : FileError → ε}
    {act : FileTree → Location → Except FileError FileTree}
    (inside : ∀ w files, Enclosed cache digest base w → act w.files w.here = .ok files →
      Confined (base <+: ·) w { w with files }) :
    Staying cache digest base (Disk.change fail act) := by
  intro w enclosed
  unfold Disk.change
  split
  · rename_i files done
    exact inside w files enclosed done
  · exact confined_refl ..

/-- Making directories changes no file at all, wherever they are. -/
theorem staying_make_directories (fail : FileError → ε) (path : Path) :
    Staying cache digest base (Disk.makeDirectories fail path) := by
  intro w _
  have confined : Confined (base <+: ·) w _ :=
    confined_mono (confined_grown (make_directories_grown w.files w.here path)) (by simp)
  unfold Disk.makeDirectories
  split <;>
  · rename_i made
    rw [made] at confined
    exact confined

/-- Giving out a temporary name changes no file, and what is called so stays. -/
private theorem staying_temporary {rest : String → Disk ε β} (kept : Kept key)
    (stays : ∀ temporary, Steady temporary → Staying cache digest base (rest temporary)) :
    Staying cache digest base (Disk.temporaryName key >>= rest) := by
  intro w enclosed
  have issued : Confined (base <+: ·) w { w with issued := w.issued + 1 } :=
    ⟨rfl, rfl, fun _ _ => Iff.rfl, keeps_ways_refl _, fun _ _ => rfl⟩
  exact confined_trans issued
    (stays _ (hidden_steady kept w.process w.issued) _ (enclosed_of_confined enclosed issued))

theorem staying_write_whole (kept : Kept key) (fail : Path → FileError → ε) (content : Bytes) :
    Staying cache digest base (Disk.writeWhole fail (cache.sources digest) key content) := by
  unfold Disk.writeWhole
  apply staying_temporary kept
  intro temporary steady
  apply staying_bind (staying_change fun w files enclosed => write_inside enclosed steady)
  intro _
  apply staying_bind (staying_change fun w files enclosed => move_inside enclosed steady kept.steady)
  intro _
  exact staying_pure _

theorem staying_write_sources (files : List (String × Source.IncludedFile))
    (kept : ∀ entry ∈ files, Kept entry.1) :
    Staying cache digest base (InstalledCompiler.writeSources (cache.sources digest) files) := by
  induction files with
  | nil => exact staying_pure _
  | cons entry files ih =>
    obtain ⟨key, file⟩ := entry
    have rest := ih fun other inside => kept other (List.mem_cons_of_mem _ inside)
    intro w enclosed
    rw [write_sources_cons]
    split
    · exact rest w enclosed
    · exact staying_bind (staying_write_whole (kept (key, file) (by simp)) _ _) (fun _ => rest) w
        enclosed

theorem staying_materialize {request : Request}
    (kept : ∀ entry ∈ request.includes.entries, Kept entry.1) :
    Staying cache digest base (InstalledCompiler.materialize request (cache.sources digest)) :=
  staying_bind (staying_make_directories _ _) fun _ => staying_write_sources _ kept

end Operations

section Requests
variable {cache : Cache} {base : Location} {request : Request} {w : Workspace}

/-- A request whose sources have names that keep them in place is materialized in the directory of
its digest, whether this succeeds or fails: no file elsewhere comes to be, changes or goes. What is
looked for under the names is found there, too, if at all, and the directories of other digests in
the same root are left as they were. -/
theorem sources_confined (enclosed : Enclosed cache request.digest base w)
    (kept : ∀ entry ∈ request.includes.entries, Kept entry.1) :
    let after := leftBy (InstalledCompiler.materialize request (cache.sources request.digest) w)
    Confined (base <+: ·) w after ∧
      (∀ v : Workspace, SameLinks w.files v.files → v.here = w.here →
        ∀ entry ∈ request.includes.entries, ∀ location node,
          v.files.lookup v.here (sourcePath cache request.digest entry.1) = .ok (location, node) →
            base <+: location) ∧
      ∀ (place : Location) (digest : Digest), base = place ++ [request.digest.toHex] →
        digest ≠ request.digest → ∀ location, place ++ [digest.toHex] <+: location →
          contentAt? after.files location = contentAt? w.files location := by
  intro after
  have confined : Confined (base <+: ·) w after := staying_materialize kept w enclosed
  refine ⟨confined, ?_, ?_⟩
  · intro v same here entry listed location node looked
    exact found_inside (enclosed_of_same_links enclosed same here) (kept entry listed).steady
      (find_of_lookup looked)
  · rintro place digest rfl other location inside
    refine confined.elsewhere location fun within => other ?_
    have same := List.prefix_of_prefix_length_le inside within (by simp)
    have hexes : digest.toHex = request.digest.toHex := by
      simpa using same.eq_of_length (by simp)
    exact ByteForms.to_hex_injective hexes

end Requests

section Examples

/-- A request for one source file that has this name and this script. -/
def oneSource (key script : String) : Request where
  language := .solidity
  optimize := false
  libraries := ""
  entry := key
  includes := KeyMap.empty.insert key ⟨[], script⟩

/-- A name that starts at the directory itself keeps its source in place. -/
theorem dotted_source_confined :
    Kept "./x.sol" ∧
      Confined (["c", (oneSource "./x.sol" "").digest.toHex] <+: ·) twoNames
        (leftBy (InstalledCompiler.materialize (oneSource "./x.sol" "")
          (smallCache.sources (oneSource "./x.sol" "").digest) twoNames)) := by
  have kept : Kept "./x.sol" := ⟨⟨by decide, by decide⟩, by decide⟩
  refine ⟨kept, (sources_confined (enclosed_of_placed two_names_placed _) ?_).1⟩
  intro entry listed
  rw [List.mem_singleton.mp listed]
  exact kept

/-- The name of a source that leads up into the root of the cache. -/
def climbing : String := "./../../x.sol"

/-- The name of its temporary file, which leads up further. -/
private def climbingHidden : String := "../../../x.sol.1.0.tmp"

section Climbing
variable {digest : Digest} {w : Workspace}
  (rooted : Rooted ⟨smallCache.sources digest⟩ ["c", digest.toHex, Cache.sourcesName] w)
include rooted

private theorem find_climbing (follow : Bool) :
    ∃ left, w.files.find follow w.here ((smallCache.sources digest).join ⟨climbing⟩) =
      walk w.files follow left ["c"] .directory ["x.sol"] := by
  have accepted : Accepted ((smallCache.sources digest).join ⟨climbing⟩) :=
    source_accepted small_roomy digest (by decide) (by decide) (by decide)
  have pieces : (Path.mk climbing).pieces = [".", "..", "..", "x.sol"] := by decide
  obtain ⟨left, found⟩ :=
    find_from rooted (by decide) ⟨"x.sol", by simp [pieces], by decide⟩ accepted follow
  rw [pieces, walk_idle (by decide), walk_up, walk_up] at found
  exact ⟨left, found⟩

private theorem find_climbing_hidden (follow : Bool) :
    ∃ left, w.files.find follow w.here ((smallCache.sources digest).join ⟨climbingHidden⟩) =
      walk w.files follow left [] .directory ["x.sol.1.0.tmp"] := by
  have accepted : Accepted ((smallCache.sources digest).join ⟨climbingHidden⟩) :=
    source_accepted small_roomy digest (by decide) (by decide) (by decide)
  have pieces : (Path.mk climbingHidden).pieces = ["..", "..", "..", "x.sol.1.0.tmp"] := by decide
  obtain ⟨left, found⟩ :=
    find_from rooted (by decide) ⟨"x.sol.1.0.tmp", by simp [pieces], by decide⟩ accepted follow
  rw [pieces, walk_up, walk_up, walk_up] at found
  exact ⟨left, found⟩

/-- A source of this name is written into the root of the cache. -/
private theorem climbing_written (free : w.files.get? ["c", "x.sol"] = none)
    (free' : w.files.get? ["x.sol.1.0.tmp"] = none) (first : w.process = 1 ∧ w.issued = 0)
    (content : Bytes) :
    ∃ after, Disk.writeWhole DispatchError.materialize (smallCache.sources digest) climbing content
        w = .ok ((smallCache.sources digest).join ⟨climbing⟩) after ∧
      after.here = w.here ∧
      ∀ other, after.files.get? other =
        if other = ["c", "x.sol"] then some (.file content false) else w.files.get? other := by
  have isName : IsName "x.sol" := by decide
  have isName' : IsName "x.sol.1.0.tmp" := by decide
  -- The temporary file is written beside the cache.
  have wrote : w.files.write w.here ((smallCache.sources digest).join ⟨climbingHidden⟩) content =
      .ok (w.files.set ["x.sol.1.0.tmp"] (.file content false)) := by
    obtain ⟨left, found⟩ := find_climbing_hidden rooted true
    rw [FileTree.write, found, walk_absent isName' free']
    rfl
  have rooted' := rooted_set rooted (.file content false) free'
  have looked : (w.files.set ["x.sol.1.0.tmp"] (.file content false)).lookup w.here
      ((smallCache.sources digest).join ⟨climbingHidden⟩) =
        .ok (["x.sol.1.0.tmp"], .file content false) := by
    obtain ⟨left, found⟩ := find_climbing_hidden rooted' true
    have there : (w.files.set ["x.sol.1.0.tmp"] (.file content false)).get? ["x.sol.1.0.tmp"] =
        some (.file content false) := (get?_set _ _ _ _ (by simp)).trans (if_pos rfl)
    rw [lookup, found, walk_found isName' there (by simp), walk]
    rfl
  have found : (w.files.set ["x.sol.1.0.tmp"] (.file content false)).find false w.here
      ((smallCache.sources digest).join ⟨climbing⟩) = .ok (.free ["c", "x.sol"] false) := by
    obtain ⟨left, found⟩ := find_climbing rooted' false
    rw [found, walk_absent isName]
    · rfl
    · rw [get?_set _ _ _ _ (by simp), if_neg (by simp)]
      exact free
  obtain ⟨open_, unclosed⟩ := not_final_step (smallCache.sources digest) [".", "..", ".."]
    (show (Path.mk climbing).isAbsolute = false by decide) (by decide) isName
  have moved : (w.files.set ["x.sol.1.0.tmp"] (.file content false)).moveFile w.here
      ((smallCache.sources digest).join ⟨climbingHidden⟩)
      ((smallCache.sources digest).join ⟨climbing⟩) =
        .ok (((w.files.set ["x.sol.1.0.tmp"] (.file content false)).erase ["x.sol.1.0.tmp"]).set
          ["c", "x.sol"] (.file content false)) := by
    simp only [moveFile, looked, found, open_, unclosed, Bool.false_eq_true, ↓reduceIte]
  have naming : s!".{climbing}.{w.process}.{w.issued}.tmp" = climbingHidden := by
    rw [first.1, first.2]
    decide
  refine ⟨_, writes_whole _ naming wrote moved, rfl, fun other => ?_⟩
  rw [get?_set _ _ _ _ (by simp), get?_erase _ _ _ (by simp), get?_set _ _ _ _ (by simp)]
  by_cases temporary : other = ["x.sol.1.0.tmp"]
  · simp [temporary, free']
  · simp only [temporary, ↓reduceIte]

end Climbing

private theorem climbing_name : IsName "x.sol" := by decide

theorem hex_not_climbing (digest : Digest) : digest.toHex ≠ "x.sol" := by
  intro same
  exact to_hex_undotted digest (by simp [same])

/-- In the empty cache, a source of this name comes to be in the root, and no other file. -/
theorem climbing_materialized (digest : Digest) (script : String) :
    ∃ after, InstalledCompiler.materialize (oneSource climbing script) (smallCache.sources digest)
        twoNames = .ok () after ∧
      after.here = [] ∧
      ∀ other, after.files.get? other =
        if other = ["c", "x.sol"] then some (.file (Text.utf8 script.toList) false)
        else if other = ["c", digest.toHex, Cache.sourcesName] then some .directory
        else if other = ["c", digest.toHex] then some .directory
        else twoNames.files.get? other := by
  obtain ⟨files, making, rooted, held⟩ :=
    makes_sources two_names_rooted small_roomy (small_sources_above digest) (two_names_new digest)
  have free : files.get? ["c", "x.sol"] = none := by
    rw [held, if_neg (by simp), if_neg (by simpa using (hex_not_climbing digest).symm)]
    rfl
  have free' : files.get? ["x.sol.1.0.tmp"] = none := by
    rw [held, if_neg (by simp), if_neg (by simp)]
    rfl
  have absent : ({ twoNames with files } : Workspace).isFile
      ((smallCache.sources digest).join ⟨climbing⟩) = false := by
    obtain ⟨left, found⟩ := find_climbing rooted true
    rw [walk_absent climbing_name free] at found
    exact not_file_of_free found
  obtain ⟨after, wrote, here, held'⟩ := climbing_written rooted free free' ⟨rfl, rfl⟩
    (Text.utf8 script.toList)
  refine ⟨after, (bind_of_ok making _).trans ?_, here, fun other => ?_⟩
  · rw [show (oneSource climbing script).includes.entries = [(climbing, _)] from rfl,
      write_sources_cons, absent, if_neg (by simp)]
    exact bind_of_ok wrote _
  · rw [held', held]
    rfl

/-- Where a file is in the root already, it passes for the source of another digest. -/
private theorem climbing_passed {digest : Digest} {w : Workspace} {content : Bytes}
    {executable : Bool} (rooted : Rooted smallCache ["c"] w)
    (new : ∀ location, ["c"] ++ [digest.toHex] <+: location → w.files.get? location = none)
    (there : w.files.get? ["c", "x.sol"] = some (.file content executable)) (script : String) :
    ∃ after, InstalledCompiler.materialize (oneSource climbing script) (smallCache.sources digest)
        w = .ok () after ∧
      after.read (sourcePath smallCache digest climbing) = .ok content := by
  obtain ⟨files, making, rooted, held⟩ :=
    makes_sources rooted small_roomy (small_sources_above digest) new
  have there : files.get? ["c", "x.sol"] = some (.file content executable) := by
    rw [held, if_neg (by simp), if_neg (by simpa using (hex_not_climbing digest).symm)]
    exact there
  have read : ({ w with files } : Workspace).read (sourcePath smallCache digest climbing) =
      .ok content := by
    obtain ⟨left, found⟩ := find_climbing rooted true
    rw [walk_found climbing_name there (by simp), walk] at found
    simp only [Workspace.read, FileTree.read, lookup, sourcePath, found]
  have present : ({ w with files } : Workspace).isFile
      ((smallCache.sources digest).join ⟨climbing⟩) = true :=
    (is_file_iff _ _).mpr ⟨content, read⟩
  refine ⟨{ w with files }, (bind_of_ok making _).trans ?_, read⟩
  rw [show (oneSource climbing script).includes.entries = [(climbing, _)] from rfl,
    write_sources_cons, present, if_pos rfl]
  rfl

/-- A source whose name climbs is written outside the directory of its digest, though no link is there.
A request of another digest with a source of this name finds the script of the first in its place. -/
theorem climbing_source_escapes :
    let first := oneSource climbing "contract x {}"
    let second := oneSource climbing "contract y {}"
    first.digest ≠ second.digest ∧
      ∃ after, InstalledCompiler.materialize first (smallCache.sources first.digest) twoNames =
          .ok () after ∧
        ¬ ["c", first.digest.toHex] <+: ["c", "x.sol"] ∧
        contentAt? twoNames.files ["c", "x.sol"] = none ∧
        contentAt? after.files ["c", "x.sol"] = some (Text.utf8 "contract x {}".toList) ∧
        ∃ later, InstalledCompiler.materialize second (smallCache.sources second.digest) after =
            .ok () later ∧
          later.read (sourcePath smallCache second.digest climbing) =
            .ok (Text.utf8 "contract x {}".toList) := by
  intro first second
  have different : first.digest ≠ second.digest := by decide +kernel
  obtain ⟨after, materialized, here, held⟩ := climbing_materialized first.digest "contract x {}"
  have there : after.files.get? ["c", "x.sol"] =
      some (.file (Text.utf8 "contract x {}".toList) false) := by
    rw [held, if_pos rfl]
  have rooted : Rooted smallCache ["c"] after := by
    have root : after.files.get? ["c"] = some .directory := by
      rw [held, if_neg (by simp), if_neg (by simp), if_neg (by simp)]
      rfl
    have pieces : steps smallCache.root = ["c"] := by decide
    rw [Rooted, pieces, origin, here, ite_self]
    exact (walk_found (by decide) root (by simp)).trans (by rw [walk]; rfl)
  have new : ∀ location, ["c"] ++ [second.digest.toHex] <+: location →
      after.files.get? location = none := by
    rintro _ ⟨rest, rfl⟩
    have hexes : second.digest.toHex ≠ first.digest.toHex :=
      fun same => different (ByteForms.to_hex_injective same).symm
    rw [held, if_neg (by simp [hex_not_climbing]), if_neg (by simp [hexes]),
      if_neg (by simp [hexes])]
    exact two_names_new second.digest _ (List.prefix_append ..)
  obtain ⟨later, passed, read⟩ := climbing_passed rooted new there "contract y {}"
  exact ⟨different, after, materialized, by simpa using hex_not_climbing first.digest, rfl,
    content_of_file there, later, passed, read⟩

end Examples

end ContractBuild.ConfinedSources
