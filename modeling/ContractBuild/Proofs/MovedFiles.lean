import ContractBuild.Proofs.CacheRoom
import ContractBuild.Proofs.OpenWays

/-! What is found where a file was moved to. The move puts the file in the place of whatever stood
under the name, a link as well. If the way to the name went through that link, the path leads nowhere
afterwards; otherwise it leads to the file. -/
namespace ContractBuild.MovedFiles
open CacheChange CachePlace CacheRoom FileTree OpenWays PathPieces PathRoute PathWalk WrittenFiles

section Moves
variable {tree files : FileTree} {here at_ location source : Location} {old path : Path}
  {front : List String} {last : String} {spot : Spot} {follow : Bool} {node : Node}
  {content : Bytes} {executable : Bool}

/-- A path whose first pieces lead to a directory leads there to its last name, if it leads anywhere. -/
theorem find_last (plain : Plain last) (split : path.pieces = front ++ [last])
    (came : tree.find follow here path = .ok spot) :
    IsName last ∧ ∃ at_ left,
      walk tree true maxLinks (if path.isAbsolute then [] else here) .directory front =
        .ok (.taken at_ .directory) ∧
      walk tree follow left at_ .directory [last] = .ok spot := by
  have walked := walk_of_find came
  rw [split] at walked
  have on : GoesOn [last] := ⟨last, by simp, plain_visible plain⟩
  rcases walk_append tree maxLinks (if path.isAbsolute then [] else here) .directory front with
    ⟨reached, found, left, -, led, onward⟩ | ⟨-, fails⟩
  · rw [onward follow [last] (Or.inl on)] at walked
    obtain ⟨rfl, isName⟩ := name_of_walk plain walked
    exact ⟨isName, reached, left, led, walked⟩
  · obtain ⟨error, failed⟩ := fails follow [last] on
    rw [failed] at walked
    cases walked

/-- Files are moved to names only: a step or a slash at the end is refused. -/
theorem name_of_move (done : tree.moveFile here old path = .ok files) :
    ∃ front last, path.pieces = front ++ [last] ∧ Plain last := by
  have named : endsInStep path = false ∧ endsInSlash path = false := by
    unfold FileTree.moveFile at done
    split at done
    · cases done
    · cases done
    · split at done
      · cases done
      · split at done
        · cases done
        · rename_i step
          split at done
          · cases done
          · rename_i slash
            exact ⟨by simpa using step, by simpa using slash⟩
  obtain ⟨front, last, split⟩ :=
    (List.eq_nil_or_concat' path.pieces).resolve_left (pieces_ne_nil path)
  have visible : last ≠ "" := by
    rintro rfl
    rcases (last_piece_empty_iff path).mp (by simp [split]) with empty | slash
    · simp [endsInStep, ending?, Path.pieces, empty, Text.split] at named
    · simp [endsInSlash, slash] at named
  have ending : ending? path = some last := by simp [ending?, split, visible]
  obtain ⟨idle, inner⟩ : last ≠ "." ∧ last ≠ ".." := by simpa [endsInStep, ending] using named.1
  have inside : last ∈ path.pieces := by simp [split]
  exact ⟨front, last, split, by simp [Path.isIdle, visible, idle], inner,
    separator_not_mem_pieces inside⟩

theorem route_named {left : Nat} (plain : Plain last) :
    route tree false left at_ [last] = some (at_ ++ [last]) := by
  by_cases link : ∃ target, tree.get? (at_ ++ [last]) = some (.link target)
  · obtain ⟨target, there⟩ := link
    rw [route_link plain.busy plain.inner there, if_pos (by simp)]
  · rw [route_on plain.busy plain.inner fun target there => link ⟨target, there⟩, route]

/-- What a tree holds after a file was moved to a name in a directory, which may have been anything but
a directory before. -/
theorem moved_holds (plain : Plain last) (split : path.pieces = front ++ [last])
    (done : tree.moveFile here old path = .ok files)
    (held : tree.lookup here old = .ok (source, .file content executable)) :
    Accepted path ∧ IsName last ∧ ∃ at_,
      walk tree true maxLinks (if path.isAbsolute then [] else here) .directory front =
        .ok (.taken at_ .directory) ∧
      ∀ other, files.get? other =
        if other = at_ ++ [last] then some (.file content executable)
        else if other = source then none else tree.get? other := by
  obtain ⟨source', node, found, moved, -⟩ := move_ok done
  obtain ⟨rfl, rfl⟩ := Spot.taken.inj (Except.ok.inj (found.symm.trans (find_of_lookup held)))
  have there := get?_of_lookup held
  have inner : source' ≠ [] := by
    rintro rfl
    cases there
  have replaced : ∀ {at_ : Location} other,
      ((tree.erase source').set (at_ ++ [last]) (.file content executable)).get? other =
        if other = at_ ++ [last] then some (.file content executable)
        else if other = source' then none else tree.get? other := by
    intro at_ other
    rw [get?_set _ _ _ _ (by simp), get?_erase _ _ _ inner]
  rcases moved with ⟨place, slash, came, rfl⟩ | ⟨place, passed, came, -, rfl⟩
  · obtain ⟨isName, at_, left, led, walked⟩ := find_last plain split came
    obtain rfl := Option.some.inj ((route_named plain).symm.trans (route_of_free walked).1)
    exact ⟨accepted_of_find came, isName, at_, led, replaced⟩
  · obtain ⟨isName, at_, left, led, walked⟩ := find_last plain split came
    obtain rfl := Option.some.inj ((route_named plain).symm.trans (route_of_walk walked))
    refine ⟨accepted_of_find came, isName, at_, led, ?_⟩
    split
    · rename_i same
      intro other
      rw [← same] at there ⊢
      split
      · rename_i own
        rw [own, there]
      · rfl
    · exact replaced

/-- Where the first pieces of the path still lead to a directory after a file was moved there, the path
leads to the file: what was in its place may have been a link that led on. -/
theorem moved_found (plain : Plain last) (split : path.pieces = front ++ [last])
    (done : tree.moveFile here old path = .ok files)
    (held : tree.lookup here old = .ok (source, .file content executable))
    (led : walk files true maxLinks (if path.isAbsolute then [] else here) .directory front =
      .ok (.taken at_ .directory)) :
    files.lookup here path = .ok (at_ ++ [last], .file content executable) := by
  obtain ⟨accepted, isName, at_', led', holds⟩ := moved_holds plain split done held
  -- The tree has got nothing new but a file, so its ways were there before.
  have kept : ∀ {place node}, (∀ content executable, node ≠ .file content executable) →
      files.get? place = some node → tree.get? place = some node := by
    intro place node solid there
    rw [holds] at there
    split at there
    · exact absurd (Option.some.inj there).symm (solid _ _)
    · split at there
      · cases there
      · exact there
  have ways : KeepsWays files tree := ⟨fun _ => kept (by simp), fun _ _ => kept (by simp)⟩
  have before := walk_later ways rfl led (.kept at_)
  obtain ⟨rfl, -⟩ := Spot.taken.inj (Except.ok.inj (before.symm.trans led'))
  have there : files.get? (at_ ++ [last]) = some (.file content executable) := by
    rw [holds, if_pos rfl]
  refine lookup_ok_iff.mpr ⟨accepted, ?_⟩
  rw [split]
  rcases walk_append files maxLinks (if path.isAbsolute then [] else here) .directory front with
    ⟨reached, found, left, -, came, onward⟩ | ⟨missed, -⟩
  · obtain ⟨rfl, rfl⟩ := Spot.taken.inj (Except.ok.inj (came.symm.trans led))
    rw [onward true [last] (Or.inr rfl), walk_found isName there (by simp), walk]
  · exact absurd led (missed _ _)

/-- A path that a file was moved to leads to the file or nowhere. -/
theorem moved_only (done : tree.moveFile here old path = .ok files)
    (held : tree.lookup here old = .ok (source, .file content executable))
    (looked : files.lookup here path = .ok (location, node)) : node = .file content executable := by
  obtain ⟨front, last, split, plain⟩ := name_of_move done
  obtain ⟨-, at_, left, led, -⟩ := find_last plain split (find_of_lookup looked)
  have found := moved_found plain split done held led
  exact (Prod.mk.inj (Except.ok.inj (looked.symm.trans found))).2

end Moves

section Wholes
variable {ε : Type} {fail : Path → FileError → ε} {w after : Workspace} {directory written path : Path}
  {name : String} {content : Bytes}

theorem file_of_read (read : w.read path = .ok content) : w.isFile path = true := by
  simp only [Workspace.read, FileTree.read] at read
  simp only [Workspace.isFile, FileTree.isFile]
  split at read <;> simp_all

/-- A whole file that was written is read as it was written wherever its path leads to a file. -/
theorem write_whole_read (done : Disk.writeWhole fail directory name content w = .ok written after)
    (there : after.isFile (directory.join ⟨name⟩) = true) :
    after.read (directory.join ⟨name⟩) = .ok content := by
  obtain ⟨files, files', wrote, moved, rfl⟩ := write_whole_ok done
  obtain ⟨-, -, location, executable, held⟩ := write_found wrote
  simp only [Workspace.isFile, FileTree.isFile] at there
  split at there
  · rename_i looked
    obtain ⟨rfl, rfl⟩ := Node.file.inj (moved_only moved held looked)
    simp only [Workspace.read, FileTree.read, looked]
  · cases there

/-- The path of a file that was written leads to a file exactly if the directory is still found. -/
theorem write_whole_there_iff (plain : Plain name)
    (done : Disk.writeWhole fail directory name content w = .ok written after) :
    Accepted (directory.join ⟨name⟩) ∧
      (after.isFile (directory.join ⟨name⟩) = true ↔ ∃ at_, Rooted ⟨directory⟩ at_ after) := by
  obtain ⟨files, files', wrote, moved, rfl⟩ := write_whole_ok done
  obtain ⟨-, -, location, executable, held⟩ := write_found wrote
  have relative := plain_relative plain
  have split : (directory.join ⟨name⟩).pieces = steps directory ++ [name] := by
    rw [pieces_join _ _ relative, plain_pieces plain]
  refine ⟨(moved_holds plain split moved held).1, fun there => ?_, fun ⟨at_, rooted⟩ => ?_⟩
  · simp only [Workspace.isFile, FileTree.isFile] at there
    split at there
    · rename_i looked
      obtain ⟨-, at_, left, led, -⟩ := find_last plain split (find_of_lookup looked)
      rw [absolute_join _ _ relative] at led
      exact ⟨at_, led⟩
    · cases there
  · rw [Rooted, origin, ← absolute_join directory ⟨name⟩ relative] at rooted
    simp only [Workspace.isFile, FileTree.isFile, moved_found plain split moved held rooted]

end Wholes

section Artifacts
variable {cache : Cache} {w after : Workspace} {digest : Digest} {name : String} {artifact : Artifact}
  {written : Path} {payload : Bytes} {version : String}

theorem directory_led_iff {at_ : Location} (accepted : Accepted (cache.directory digest)) :
    w.files.lookup w.here (cache.directory digest) = .ok (at_, .directory) ↔
      Rooted ⟨cache.directory digest⟩ at_ w := by
  have own : (cache.directory digest).pieces = steps (cache.directory digest) := by
    rw [(directory_pieces cache digest).1]
    exact (steps_join (to_hex_plain digest) cache.root).symm
  rw [lookup_ok_iff, own, Rooted, origin]
  exact ⟨fun led => led.2, fun walked => ⟨accepted, walked⟩⟩

theorem directory_rooted_iff (accepted : Accepted (cache.directory digest)) :
    w.isDirectory (cache.directory digest) = true ↔
      ∃ at_, Rooted ⟨cache.directory digest⟩ at_ w := by
  simp only [← directory_led_iff accepted, Workspace.isDirectory, FileTree.isDirectory]
  constructor
  · intro there
    split at there
    · exact ⟨_, ‹_›⟩
    · cases there
  · rintro ⟨at_, looked⟩
    rw [looked]

theorem directory_visible (cache : Cache) (digest : Digest) :
    (cache.directory digest).text ≠ "" := by
  intro empty
  have pieces := (directory_pieces cache digest).1
  have blank : (cache.directory digest).pieces = [""] := by simp [Path.pieces, empty, Text.split]
  rw [blank] at pieces
  have last := congrArg List.getLast? pieces
  simp only [List.getLast?_singleton, List.getLast?_append, Option.some_or, Option.some.injEq] at last
  exact plain_visible (to_hex_plain digest) last.symm

/-- Of an artifact that was written all is read or nothing is, as its path leads to a file or not. -/
theorem read_written (done : cache.writeArtifact digest name artifact w = .ok written after) :
    cache.readArtifact? after digest name =
      if after.isFile (cache.file digest name) then Artifact.decode? artifact.encode else none := by
  obtain ⟨⟨⟩, made, -, whole⟩ := ok_of_bind done
  split
  · rename_i there
    exact read_artifact_of_read (write_whole_read whole there)
  · rename_i lost
    cases read : after.read (cache.file digest name) with
    | ok content => exact absurd (file_of_read read) lost
    | error cause => exact unread_artifact read

/-- The path of an artifact that was written leads to a file exactly if the directory of its digest is
still found. -/
theorem written_there_iff (plain : Plain name)
    (done : cache.writeArtifact digest name artifact w = .ok written after) :
    after.isFile (cache.file digest name) = true ↔
      after.isDirectory (cache.directory digest) = true := by
  obtain ⟨⟨⟩, made, -, whole⟩ := ok_of_bind done
  obtain ⟨accepted, there⟩ := write_whole_there_iff plain whole
  have taken : Accepted (cache.directory digest) :=
    accepted_of_below (by simpa using plain) (directory_visible cache digest)
      (show Accepted (pathBelow (cache.directory digest) [name]) from accepted)
  rw [directory_rooted_iff taken]
  exact there

/-- The path still leads to the file if no link stood in its place. -/
theorem written_there (unlinked : Unlinked w.files w.here (cache.file digest name))
    (done : cache.writeArtifact digest name artifact w = .ok written after) :
    after.isFile (cache.file digest name) = true := by
  obtain ⟨-, -, read⟩ := write_artifact_found unlinked done
  exact file_of_read read

/-- What is read of a result that was kept. -/
theorem read_kept (done : cache.putPayload digest payload version w = .ok () after) :
    cache.readArtifact? after digest Cache.resultName =
      if after.isDirectory (cache.directory digest) then
        Artifact.decode? (Artifact.encode ⟨version, payload⟩)
      else none := by
  obtain ⟨written, last, artifact, ended⟩ := ok_of_bind done
  obtain ⟨-, rfl⟩ := EStateM.Result.ok.inj ended
  simp only [read_written artifact, written_there_iff result_plain artifact]

/-- The directory of a digest is still found if no link stood in the place of the result. -/
theorem directory_kept (unlinked : Unlinked w.files w.here (cache.file digest Cache.resultName))
    (done : cache.putPayload digest payload version w = .ok () after) :
    after.isDirectory (cache.directory digest) = true := by
  obtain ⟨written, last, artifact, ended⟩ := ok_of_bind done
  obtain ⟨-, rfl⟩ := EStateM.Result.ok.inj ended
  exact (written_there_iff result_plain artifact).mp (written_there unlinked artifact)

end Artifacts

section Tangles

/-- A workspace in which the place of a result is taken by a link that leads back up. -/
def tangled (digest : Digest) : Workspace where
  files := ⟨[([digest.toHex], .directory), ([digest.toHex, Cache.resultName], .link ⟨".."⟩)]⟩
  here := []
  process := 1
  issued := 0

/-- The cache whose root path goes through that link. -/
def tangledCache (digest : Digest) : Cache := ⟨(Path.mk digest.toHex).join ⟨Cache.resultName⟩⟩

/-- The first temporary name of a process. -/
theorem first_name_fit : Fit s!".{Cache.resultName}.{1}.{0}.tmp" :=
  ⟨(temporary_plain result_plain _ _).1, by decide, by decide⟩

private theorem tangled_steps (digest : Digest) :
    steps ((tangledCache digest).directory digest) =
      [digest.toHex, Cache.resultName, digest.toHex] := by
  have hex := to_hex_plain digest
  have first : steps ⟨digest.toHex⟩ = [digest.toHex] := by
    simp [steps, plain_pieces hex, plain_visible hex]
  rw [Cache.directory, steps_join hex, tangledCache, steps_join result_plain, first]
  rfl

private theorem tangled_roomy (digest : Digest) : Roomy (tangledCache digest).root := by
  obtain ⟨sized, whole⟩ := to_hex_bytes digest
  have short : Text.byteLength Cache.resultName.toList ≤ 10 := by decide
  obtain ⟨accepted, bound⟩ := accepted_join 10
    (show '\x00' ∉ (Path.mk digest.toHex).text.toList from whole) result_fit.whole
    (plain_visible result_plain) short (by simp only [sized, maxPathBytes]; omega)
  exact ⟨accepted.whole, by simp only [sized] at bound; simp only [tangledCache]; omega⟩

private theorem tangled_there (digest : Digest) :
    (tangled digest).files.get? [digest.toHex] = some .directory ∧
      (tangled digest).files.get? [digest.toHex, Cache.resultName] = some (.link ⟨".."⟩) ∧
      ∀ name, name ≠ Cache.resultName →
        (tangled digest).files.get? [digest.toHex, name] = none := by
  refine ⟨?_, ?_, fun name other => ?_⟩
  · simp [FileTree.get?, tangled]
  · simp [FileTree.get?, tangled]
  · simp [FileTree.get?, tangled, other.symm]

/-- The root path comes back to the directory that holds the link. -/
private theorem tangled_rooted (digest : Digest) :
    Rooted ⟨(tangledCache digest).directory digest⟩ [digest.toHex] (tangled digest) := by
  obtain ⟨directory, link, -⟩ := tangled_there digest
  have hex := to_hex_is_name digest
  rw [Rooted, tangled_steps, origin, show (tangled digest).here = [] from rfl, ite_self,
    walk_found hex directory (by simp), show maxLinks = 39 + 1 from rfl,
    walk_link result_fit.isName link (Or.inr rfl)]
  have up : (Path.mk "..").pieces = [".."] := by decide
  rw [if_neg (by decide), up]
  exact walk_up.trans ((walk_found hex directory (by simp)).trans (by rw [walk]; rfl))

/-- A put replaces the link by the artifact, and the root path leads nowhere then. -/
theorem tangled_loses (digest : Digest) (payload : Bytes) (version : String) :
    ∃ after, (tangledCache digest).putPayload digest payload version (tangled digest) =
        .ok () after ∧ after.isDirectory ((tangledCache digest).directory digest) = false := by
  obtain ⟨directory, link, free⟩ := tangled_there digest
  have rooted := tangled_rooted digest
  have roomy := tangled_roomy digest
  have hex := to_hex_is_name digest
  have accepted := (directory_accepted roomy digest).1
  have other : s!".{Cache.resultName}.{1}.{0}.tmp" ≠ Cache.resultName :=
    (temporary_plain result_plain 1 0).2
  have making := directories_made (CacheError.mk ((tangledCache digest).directory digest))
    (makes_there ((directory_led_iff accepted).mpr rooted))
  obtain ⟨after, writing, here, held⟩ := writes_whole_child CacheError.mk
    (Artifact.mk version payload).encode rooted result_fit first_name_fit
    (fun name fit => file_accepted roomy digest fit) (free _ other) (by simp [link])
  have artifact : (tangledCache digest).writeArtifact digest Cache.resultName ⟨version, payload⟩
      (tangled digest) = .ok _ after := (bind_of_ok making _).trans writing
  refine ⟨after, bind_of_ok artifact _, ?_⟩
  rw [← Bool.not_eq_true, directory_rooted_iff accepted]
  rintro ⟨at_, lost⟩
  have directory' : after.files.get? [digest.toHex] = some .directory := by
    rw [held, if_neg (by simp)]
    exact directory
  have there : after.files.get? [digest.toHex, Cache.resultName] =
      some (.file (Artifact.mk version payload).encode false) := by
    rw [held]
    exact if_pos rfl
  rw [Rooted, tangled_steps, origin, here, show (tangled digest).here = [] from rfl, ite_self,
    walk_found hex directory' (by simp), walk_found result_fit.isName there (by simp),
    walk_outside (by simp)] at lost
  cases lost

end Tangles

end ContractBuild.MovedFiles
