import ContractBuild.Cache.Basic
import ContractBuild.Proofs.PathPieces
import ContractBuild.Proofs.PathRoute

/-! What was written is found again. A change that leaves the directories and the links of a tree
alone leaves every walk its way: a path that led to a file or to a free name before leads to the
same location after it, and finds what is there then. -/
namespace ContractBuild.WrittenFiles
open FileTree PathPieces PathRoute PathWalk

section Walks
variable {tree middle after : FileTree} {follow : Bool} {links : Nat}
  {at_ here location reached : Location} {node found : Node} {pieces : List String} {path : Path}
  {spot : Spot}

/-- A later tree has all the directories and links that a tree has: what a walk may pass. -/
structure KeepsWays (tree after : FileTree) : Prop where
  directories : ∀ location, tree.get? location = some .directory →
    after.get? location = some .directory
  links : ∀ location target, tree.get? location = some (.link target) →
    after.get? location = some (.link target)

theorem keeps_ways_refl (tree : FileTree) : KeepsWays tree tree :=
  ⟨fun _ there => there, fun _ _ there => there⟩

/-- The ways are kept if nothing that was there is lost. -/
theorem keeps_ways_of_kept
    (kept : ∀ location node, tree.get? location = some node → after.get? location = some node) :
    KeepsWays tree after :=
  ⟨fun location => kept location _, fun location _ => kept location _⟩

theorem keeps_ways_trans (first : KeepsWays tree middle) (second : KeepsWays middle after) :
    KeepsWays tree after where
  directories location there := second.directories location (first.directories location there)
  links location target there := second.links location target (first.links location target there)

theorem keeps_ways_of_grown (grown : Grown tree after) : KeepsWays tree after where
  directories location there := by
    rcases grown location with same | ⟨absent, -⟩
    · rw [same, there]
    · rw [absent] at there
      cases there
  links location target there := (same_links_of_grown grown location target).mpr there

/-- A location that is no way of a tree: it is free, or holds a file. -/
def NoWay (tree : FileTree) (location : Location) : Prop :=
  tree.get? location = none ∨ ∃ content executable,
    tree.get? location = some (.file content executable)

theorem inner_of_no_way (noWay : NoWay tree location) : location ≠ [] := by
  rintro rfl
  rcases noWay with absent | ⟨content, executable, there⟩
  · cases absent
  · cases there

/-- What is different at one location that is no way leaves all ways alone. -/
theorem keeps_ways_of_no_way (noWay : NoWay tree location)
    (elsewhere : ∀ other, other ≠ location → after.get? other = tree.get? other) :
    KeepsWays tree after where
  directories other there := by
    rw [elsewhere other ?_, there]
    rintro rfl
    rcases noWay with absent | ⟨content, executable, there'⟩ <;> simp_all
  links other target there := by
    rw [elsewhere other ?_, there]
    rintro rfl
    rcases noWay with absent | ⟨content, executable, there'⟩ <;> simp_all

theorem keeps_ways_set (noWay : NoWay tree location) (node : Node) :
    KeepsWays tree (tree.set location node) :=
  keeps_ways_of_no_way noWay fun other different => by
    rw [get?_set _ _ _ _ (inner_of_no_way noWay), if_neg different]

theorem keeps_ways_erase (noWay : NoWay tree location) : KeepsWays tree (tree.erase location) :=
  keeps_ways_of_no_way noWay fun other different => by
    rw [get?_erase _ _ _ (inner_of_no_way noWay), if_neg different]

/-- What a later tree has where a walk came to: what was made at a free name, the directory that was
there, or a file in the place of a file. -/
inductive Later (after : FileTree) : Spot → Location → Node → Prop where
  | made {location : Location} {slash : Bool} {node : Node} (there : after.get? location = some node)
      (solid : ∀ target, node ≠ .link target) (open_ : slash = true → node = .directory) :
      Later after (.free location slash) location node
  | kept (location : Location) : Later after (.taken location .directory) location .directory
  | rewritten {location : Location} {content content' : Bytes} {executable executable' : Bool}
      (there : after.get? location = some (.file content' executable')) :
      Later after (.taken location (.file content executable)) location (.file content' executable')

/-- A walk that came somewhere comes there in a later tree as well, and finds what is there then. -/
theorem walk_later (ways : KeepsWays tree after) (start : node = .directory)
    (walked : walk tree follow links at_ node pieces = .ok spot)
    (later : Later after spot reached found) :
    walk after true links at_ node pieces = .ok (.taken reached found) := by
  fun_induction walk tree follow links at_ node pieces
  case case1 =>
    subst start
    obtain rfl := Except.ok.inj walked
    cases later
    rw [walk]
  case case2 => cases walked
  case case3 idle ih =>
    subst start
    rw [walk_idle idle]
    exact ih rfl walked
  case case4 ih =>
    subst start
    rw [walk_up]
    exact ih rfl walked
  case case5 => cases walked
  case case6 rest inside busy inner short next final absent empty =>
    subst start
    have name : IsName _ := ⟨by simpa using busy, inner, Nat.not_lt.mp short⟩
    obtain rfl := Except.ok.inj walked
    dsimp only [next] at later
    cases later with
    | made there solid open_ =>
      rw [walk_found name there solid]
      cases rest with
      | nil => rw [walk]
      | cons piece rest =>
        obtain rfl := open_ rfl
        refine walk_idles fun other inside => ?_
        have blank : other = "" := by simpa using List.all_eq_true.mp empty other inside
        rw [blank]
        rfl
  case case7 => cases walked
  case case8 =>
    obtain rfl := Except.ok.inj walked
    cases later
  case case9 => cases walked
  case case10 busy inner short next final target there on links ih =>
    subst start
    have name : IsName _ := ⟨by simpa using busy, inner, Nat.not_lt.mp short⟩
    rw [walk_link name (ways.links _ _ there) (Or.inr rfl)]
    exact ih rfl walked
  case case11 rest inside busy inner short next passed solid there ih =>
    subst start
    have name : IsName _ := ⟨by simpa using busy, inner, Nat.not_lt.mp short⟩
    cases passed with
    | directory =>
      rw [walk_found name (ways.directories _ there) (by simp)]
      exact ih rfl walked
    | file content executable =>
      -- A file ends the walk, so the file that is there later is where it ends then.
      cases rest with
      | nil =>
        rw [walk] at walked
        obtain rfl := Except.ok.inj walked
        dsimp only [next] at later
        cases later with
        | rewritten there' => rw [walk_found name there' (by simp), walk]
      | cons piece rest =>
        rw [walk_outside (by simp)] at walked
        cases walked
    | link target => exact absurd rfl (solid target)

theorem accepted_of_find (found : tree.find follow here path = .ok spot) : Accepted path := by
  unfold find at found
  split at found
  · cases found
  · rename_i whole
    split at found
    · cases found
    · rename_i nonempty
      split at found
      · cases found
      · rename_i short
        exact ⟨by simpa using whole, nonempty, Nat.not_lt.mp short⟩

/-- A path that came somewhere leads there in a later tree. -/
theorem lookup_later (ways : KeepsWays tree after) (came : tree.find follow here path = .ok spot)
    (later : Later after spot reached found) : after.lookup here path = .ok (reached, found) :=
  lookup_ok_iff.mpr ⟨accepted_of_find came, walk_later ways rfl (walk_of_find came) later⟩

/-- A directory that a path leads to is still found. -/
theorem directory_later (ways : KeepsWays tree after)
    (looked : tree.lookup here path = .ok (reached, .directory)) :
    after.lookup here path = .ok (reached, .directory) :=
  lookup_later ways (find_of_lookup looked) (.kept reached)

/-- A file that a path leads to is still found if it is still there. -/
theorem file_later (ways : KeepsWays tree after) {content : Bytes} {executable : Bool}
    (looked : tree.lookup here path = .ok (reached, .file content executable))
    (same : after.get? reached = tree.get? reached) :
    after.lookup here path = .ok (reached, .file content executable) :=
  lookup_later ways (find_of_lookup looked) (.rewritten (same.trans (get?_of_lookup looked)))

/-- Only a slash at the end of a path that ends in no link is told of a free name. -/
private theorem slash_of_walk {slash : Bool}
    (walked : walk tree false links at_ node pieces = .ok (.free location slash))
    (written : slash = true) : pieces.getLast? = some "" := by
  generalize unfollowed : false = follow at walked
  fun_induction walk tree follow links at_ node pieces
  case case1 => cases walked
  case case2 => cases walked
  case case3 rest _ idle ih =>
    have last := ih walked
    cases rest <;> simp_all
  case case4 rest _ _ ih =>
    have last := ih walked
    cases rest <;> simp_all
  case case5 => cases walked
  case case6 rest _ _ _ _ next final absent empty =>
    obtain ⟨-, rfl⟩ := Spot.free.inj (Except.ok.inj walked)
    cases shape : rest with
    | nil => simp [shape] at written
    | cons piece others =>
      rw [← shape, List.getLast?_cons_of_ne_nil (by simp [shape])]
      have last := List.getLast?_eq_some_getLast (l := rest) (by simp [shape])
      rw [last]
      have blank := List.all_eq_true.mp empty _ (List.getLast_mem (by simp [shape]))
      simpa using blank
  case case7 => cases walked
  case case8 => cases walked
  case case9 => cases walked
  case case10 rest _ _ _ _ next final target there on links ih =>
    have last := ih walked
    have goes : rest ≠ [] := by
      rintro rfl
      exact on ⟨rfl, by simp [← unfollowed]⟩
    rw [List.getLast?_append_of_ne_nil _ goes] at last
    rw [List.getLast?_cons_of_ne_nil goes, last]
  case case11 rest _ _ _ _ next passed solid there ih =>
    have last := ih walked
    cases rest <;> simp_all

/-- The end of a path that does not end in a slash is free as it is written. -/
theorem unslashed {slash : Bool} (came : tree.find false here path = .ok (.free location slash))
    (unclosed : path.text.toList.getLast? ≠ some '/') : slash = false := by
  by_contra closed
  have last := slash_of_walk (walk_of_find came) (by simpa using closed)
  rcases (last_piece_empty_iff path).mp last with empty | slash
  · exact (accepted_of_find came).nonempty (String.toList_eq_nil_iff.mp empty)
  · exact unclosed slash

/-- Following links makes no difference to a walk that ends in none. -/
theorem walk_followed (walked : walk tree false links at_ node pieces = .ok spot)
    (solid : ∀ location target, spot ≠ .taken location (.link target)) :
    walk tree true links at_ node pieces = .ok spot := by
  generalize unfollowed : false = follow at walked
  fun_induction walk tree follow links at_ node pieces
  case case1 => rw [walk, walked]
  case case2 => cases walked
  case case3 inside idle ih =>
    obtain rfl := Classical.not_not.mp inside
    rw [walk_idle idle, ih walked]
  case case4 inside busy ih =>
    obtain rfl := Classical.not_not.mp inside
    rw [walk_up, ih walked]
  case case5 => cases walked
  case case6 inside busy inner short next final absent empty =>
    obtain rfl := Classical.not_not.mp inside
    have name : IsName _ := ⟨by simpa using busy, inner, Nat.not_lt.mp short⟩
    rw [walk_absent name absent, if_pos empty, walked]
  case case7 => cases walked
  case case8 => exact absurd (Except.ok.inj walked).symm (solid _ _)
  case case9 => cases walked
  case case10 inside busy inner short next final target there on links ih =>
    obtain rfl := Classical.not_not.mp inside
    have name : IsName _ := ⟨by simpa using busy, inner, Nat.not_lt.mp short⟩
    rw [walk_link name there (Or.inr rfl)]
    exact ih walked
  case case11 inside busy inner short next passed solid' there ih =>
    obtain rfl := Classical.not_not.mp inside
    have name : IsName _ := ⟨by simpa using busy, inner, Nat.not_lt.mp short⟩
    rw [walk_found name there solid', ih walked]

theorem find_followed (came : tree.find false here path = .ok spot)
    (solid : ∀ location target, spot ≠ .taken location (.link target)) :
    tree.find true here path = .ok spot := by
  have accepted := accepted_of_find came
  rw [find_accepted accepted, walk_followed (walk_of_find came) solid]

end Walks

section Changes
variable {tree after files : FileTree} {here location source : Location} {path old new : Path}
  {content : Bytes} {executable : Bool} {spot : Spot}

/-- Writing a file to a location that is no way leaves the links alone. -/
theorem same_links_of_no_way (noWay : NoWay tree location) (content : Bytes) (executable : Bool) :
    SameLinks tree (tree.set location (.file content executable)) := by
  refine same_links_set (inner_of_no_way noWay) (fun target link => ?_) (by simp)
  rcases noWay with absent | ⟨content, executable, there⟩
  · cases absent.symm.trans link
  · cases there.symm.trans link

/-- A file that is put where a path leads, in a tree that keeps the ways, is found by the path. -/
private theorem put_found (ways : KeepsWays tree after) (noWay : NoWay after location)
    (came : tree.find true here path = .ok spot)
    (later : (after.set location (.file content executable)).get? location =
        some (.file content executable) →
      Later (after.set location (.file content executable)) spot location
        (.file content executable)) :
    KeepsWays tree (after.set location (.file content executable)) ∧
      (after.set location (.file content executable)).lookup here path =
        .ok (location, .file content executable) := by
  have ways := keeps_ways_trans ways (keeps_ways_set noWay (.file content executable))
  refine ⟨ways, lookup_later ways came (later ?_)⟩
  rw [get?_set _ _ _ _ (inner_of_no_way noWay), if_pos rfl]

/-- What is written is found where it was written. -/
theorem write_found (done : tree.write here path content = .ok files) :
    KeepsWays tree files ∧ SameLinks tree files ∧ ∃ location executable,
      files.lookup here path = .ok (location, .file content executable) := by
  unfold FileTree.write at done
  split at done
  · rename_i location old executable came
    obtain rfl := Except.ok.inj done
    have noWay : NoWay tree location :=
      Or.inr ⟨old, executable, taken_there (by simp) (walk_of_find came)⟩
    obtain ⟨ways, found⟩ := put_found (keeps_ways_refl tree) noWay came .rewritten
    exact ⟨ways, same_links_of_no_way noWay _ _, location, executable, found⟩
  · cases done
  · rename_i location came
    obtain rfl := Except.ok.inj done
    have noWay : NoWay tree location := Or.inl (find_free came).1
    obtain ⟨ways, found⟩ :=
      put_found (keeps_ways_refl tree) noWay came fun there => .made there (by simp) (by simp)
    exact ⟨ways, same_links_of_no_way noWay _ _, location, false, found⟩
  · cases done
  · cases done

/-- A path that ends in a name, slashes after it apart, is not taken for a step. -/
theorem ends_in_name {front outer : List String} {last : String}
    (pieces : path.pieces = front ++ last :: outer) (busy : Path.isIdle last = false)
    (inner : last ≠ "..") (blank : ∀ piece ∈ outer, piece = "") : endsInStep path = false := by
  have visible : last ≠ "" ∧ last ≠ "." := by simpa [Path.isIdle] using busy
  have skipped : ∀ piece ∈ outer.reverse, decide (piece = "") = true := by simpa using blank
  have ending : ending? path = some last := by
    rw [ending?, pieces, List.reverse_append, List.reverse_cons, List.append_assoc,
      List.dropWhile_append_of_pos skipped, List.cons_append,
      List.dropWhile_cons_of_neg (by simpa using visible.1), List.head?_cons]
  simp [endsInStep, ending, visible.2, inner]

/-- A file that is moved leaves its location and takes the new one. -/
theorem move_ok (done : tree.moveFile here old new = .ok files) :
    ∃ source node, tree.find true here old = .ok (.taken source node) ∧
      ((∃ place slash, tree.find false here new = .ok (.free place slash) ∧
          files = (tree.erase source).set place node) ∨
        ∃ place held, tree.find false here new = .ok (.taken place held) ∧ held ≠ .directory ∧
          files = if place = source then tree else (tree.erase source).set place node) ∧
      new.text.toList.getLast? ≠ some '/' := by
  unfold FileTree.moveFile at done
  split at done
  · cases done
  · cases done
  · rename_i source node _ looked
    refine ⟨source, node, find_of_lookup looked, ?_⟩
    split at done
    · cases done
    · rename_i spot found
      split at done
      · cases done
      · split at done
        · cases done
        · rename_i unclosed
          refine ⟨?_, by simpa [endsInSlash] using unclosed⟩
          split at done
          · cases done
          · rename_i place held solid
            exact Or.inr ⟨place, held, found, solid, (Except.ok.inj done).symm⟩
          · rename_i place slash
            exact Or.inl ⟨place, slash, found, (Except.ok.inj done).symm⟩

/-- What comes to be there when a directory is made is where its path leads. -/
theorem made_at_end {made : FileTree} (done : tree.makeDirectory here path = .ok made)
    (differs : made.get? location ≠ tree.get? location) :
    route tree true maxLinks (if path.isAbsolute then [] else here) path.pieces = some location := by
  unfold makeDirectory at done
  split at done
  · cases done
  · rename_i free slash came
    obtain rfl := Except.ok.inj done
    rw [get?_set _ _ _ _ (find_free came).2] at differs
    split at differs
    · rename_i same
      rw [same]
      exact (route_of_free (walk_of_find (find_followed came (by simp)))).1
    · exact absurd rfl differs
  · cases done

/-- What leads somewhere on the way to the parent of a path leads there on the way to the path. -/
theorem front_of_parent {parent : Path} (above : path.parent? = some parent)
    {front : List String} (before : front <+: parent.pieces)
    (leads : route tree true maxLinks (if parent.isAbsolute then [] else here) front =
      some location) :
    ∃ front, front <+: path.pieces ∧
      route tree true maxLinks (if path.isAbsolute then [] else here) front = some location := by
  obtain ⟨⟨inner, last, outer, whole, -⟩, absolute⟩ := pieces_of_parent above
  rw [absolute] at leads
  have start : steps parent <+: path.pieces := by
    rw [whole, List.append_assoc]
    exact List.prefix_append ..
  rcases pieces_eq_steps parent with own | own
  · exact ⟨front, (own ▸ before).trans start, leads⟩
  · rcases List.prefix_concat_iff.mp (own ▸ before) with rfl | before
    · refine ⟨steps parent, start, ?_⟩
      rcases route_append tree maxLinks (if path.isAbsolute then [] else here) (steps parent) with
        ⟨reached, left, -, led, onward⟩ | ⟨-, fails⟩
      · rw [onward true [""] (Or.inr rfl), route_idle (by decide), route] at leads
        rw [led, leads]
      · rw [fails true [""] (Or.inr rfl)] at leads
        cases leads
    · exact ⟨front, before.trans start, leads⟩

/-- What comes to be there when a chain of directories is made is on the way that its path leads. -/
theorem made_on_the_way (tree : FileTree) (here : Location) (path : Path) {location : Location}
    (differs : (tree.makeDirectories here path).2.get? location ≠ tree.get? location) :
    ∃ front, front <+: path.pieces ∧
      route tree true maxLinks (if path.isAbsolute then [] else here) front = some location := by
  fun_induction makeDirectories tree here path
  case case1 => exact absurd rfl differs
  case case2 path _ made done => exact ⟨path.pieces, List.prefix_rfl, made_at_end done differs⟩
  case case3 => exact absurd rfl differs
  case case4 parent above error partly failed ih =>
    rw [failed] at ih
    obtain ⟨front, before, leads⟩ := ih differs
    exact front_of_parent above before leads
  case case5 path _ _ parent above partly done made done' ih =>
    rw [done] at ih
    have grown := make_directories_grown tree here parent
    rw [done] at grown
    by_cases same : partly.get? location = tree.get? location
    · rw [← same] at differs
      have leads := made_at_end done' differs
      rw [route_of_same_links (same_links_of_grown grown)] at leads
      exact ⟨path.pieces, List.prefix_rfl, leads⟩
    · obtain ⟨front, before, leads⟩ := ih same
      exact front_of_parent above before leads
  case case6 parent above partly done error failed ih =>
    rw [done] at ih
    obtain ⟨front, before, leads⟩ := ih differs
    exact front_of_parent above before leads
  case case7 => exact absurd rfl differs

/-- A directory that is made is found. -/
theorem directory_found (nonempty : path.text ≠ "")
    (done : tree.makeDirectories here path = (.ok (), files)) :
    ∃ location, files.lookup here path = .ok (location, .directory) := by
  have found : ∀ {tree made : FileTree}, tree.makeDirectory here path = .ok made →
      ∃ location, made.lookup here path = .ok (location, .directory) := by
    intro tree made done
    unfold makeDirectory at done
    split at done
    · cases done
    · rename_i location slash came
      obtain rfl := Except.ok.inj done
      obtain ⟨absent, inner⟩ := find_free came
      refine ⟨location, lookup_later (keeps_ways_set (Or.inl absent) .directory)
        (find_followed came (by simp)) (.made ?_ (by simp) (by simp))⟩
      rw [get?_set _ _ _ _ inner, if_pos rfl]
    · cases done
  have settled : ∀ {tree : FileTree}, tree.isDirectory here path = true →
      ∃ location, tree.lookup here path = .ok (location, .directory) := by
    intro tree there
    unfold FileTree.isDirectory at there
    split at there
    · rename_i location looked
      exact ⟨location, looked⟩
    · cases there
  have settles : ∀ {tree : FileTree} {error : FileError},
      ((if tree.isDirectory here path then .ok () else .error error : Except FileError Unit), tree) =
        (.ok (), files) →
      ∃ location, files.lookup here path = .ok (location, .directory) := by
    intro tree error same
    obtain ⟨there, rfl⟩ := Prod.mk.inj same
    split at there
    · rename_i directory
      exact settled directory
    · cases there
  rw [makeDirectories, if_neg nonempty] at done
  split at done
  · rename_i made first
    obtain ⟨-, rfl⟩ := Prod.mk.inj done
    exact found first
  · split at done
    · cases done
    · split at done
      · cases done
      · split at done
        · rename_i made second
          obtain ⟨-, rfl⟩ := Prod.mk.inj done
          exact found second
        · exact settles done
  · exact settles done

/-- Where a directory cannot be made because the one above it is missing, this one is made first. -/
theorem makes_above {parent : Path} {partly : FileTree} (nonempty : path.text ≠ "")
    (early : tree.makeDirectory here path = .error .notFound) (above : path.parent? = some parent)
    (made : tree.makeDirectories here parent = (.ok (), partly)) :
    tree.makeDirectories here path =
      match partly.makeDirectory here path with
      | .ok made => (.ok (), made)
      | .error error => (if partly.isDirectory here path then .ok () else .error error, partly) := by
  rw [makeDirectories, if_neg nonempty, early]
  dsimp only
  split
  · rename_i none
    cases above.symm.trans none
  · rename_i parent' there
    obtain rfl := Option.some.inj (above.symm.trans there)
    generalize tree.makeDirectories here parent = result at made ⊢
    subst made
    rfl

/-- No symbolic link stands where a path ends, once the directories on the way are made. -/
def Unlinked (tree : FileTree) (here : Location) (path : Path) : Prop :=
  ∀ location target,
    route tree false maxLinks (if path.isAbsolute then [] else here) path.pieces = some location →
      tree.get? location ≠ some (.link target)

theorem unlinked_of_same_links (links : SameLinks tree after) (unlinked : Unlinked tree here path) :
    Unlinked after here path := by
  intro location target leads there
  rw [route_of_same_links links] at leads
  exact unlinked location target leads ((links location target).mp there)

/-- A file that is moved is found under its new name. -/
theorem move_found (done : tree.moveFile here old new = .ok files)
    (held : tree.lookup here old = .ok (source, .file content executable))
    (unlinked : Unlinked tree here new) :
    KeepsWays tree files ∧
      ∃ location, files.lookup here new = .ok (location, .file content executable) := by
  obtain ⟨source', node, found, moved, unclosed⟩ := move_ok done
  obtain ⟨rfl, rfl⟩ := Spot.taken.inj (Except.ok.inj (found.symm.trans (find_of_lookup held)))
  have there := get?_of_lookup held
  have noWay : NoWay tree source' := Or.inr ⟨content, executable, there⟩
  have left := keeps_ways_erase noWay
  have elsewhere : ∀ {place}, place ≠ source' → NoWay tree place →
      NoWay (tree.erase source') place := by
    intro place apart free
    rwa [NoWay, get?_erase _ _ _ (inner_of_no_way noWay), if_neg apart]
  rcases moved with ⟨place, slash, came, rfl⟩ | ⟨place, passed, came, inner, rfl⟩
  · obtain ⟨absent, -⟩ := find_free came
    have apart : place ≠ source' := by
      rintro rfl
      rw [absent] at there
      cases there
    have open_ := unslashed came unclosed
    obtain ⟨ways, found⟩ := put_found left (elsewhere apart (Or.inl absent))
      (find_followed came (by simp)) fun there => .made there (by simp) (by simp [open_])
    exact ⟨ways, place, found⟩
  · have held' := taken_there inner (walk_of_find came)
    cases passed with
    | directory => exact absurd rfl inner
    | link target => exact absurd held' (unlinked place target (route_of_walk (walk_of_find came)))
    | file content' executable' =>
      have came' := find_followed came (by simp)
      split
      · rename_i same
        subst same
        have ways := keeps_ways_refl tree
        exact ⟨ways, place, lookup_later ways came' (.rewritten there)⟩
      · rename_i apart
        have noWay' : NoWay tree place := Or.inr ⟨content', executable', held'⟩
        obtain ⟨ways, found⟩ := put_found left (elsewhere apart noWay') came' .rewritten
        exact ⟨ways, place, found⟩

end Changes

section Disks
variable {ε : Type} {cache : Cache} {place : Location} {w after : Workspace} {digest : Digest}
  {directory written : Path} {name : String} {content : Bytes} {artifact : Artifact}

/-- A step of an operation that succeeds is followed by one that succeeds. -/
theorem ok_of_bind {ε σ α β : Type} {first : EStateM ε σ α} {rest : α → EStateM ε σ β}
    {state last : σ} {value : β} (done : (first >>= rest) state = .ok value last) :
    ∃ middle between, first state = .ok middle between ∧ rest middle between = .ok value last := by
  change EStateM.bind first rest state = _ at done
  unfold EStateM.bind at done
  split at done
  · rename_i middle between taken
    exact ⟨middle, between, taken, done⟩
  · cases done

theorem change_ok {fail : FileError → ε}
    {act : FileTree → Location → Except FileError FileTree} {answer : Unit}
    (done : Disk.change fail act w = .ok answer after) :
    ∃ files, act w.files w.here = .ok files ∧ after = { w with files } := by
  unfold Disk.change at done
  split at done
  · rename_i files acted
    exact ⟨files, acted, (EStateM.Result.ok.inj done).2.symm⟩
  · cases done

theorem bind_of_ok {ε τ α β : Type} {first : EStateM ε τ α} {state middle : τ} {value : α}
    (done : first state = .ok value middle) (rest : α → EStateM ε τ β) :
    (first >>= rest) state = rest value middle := by
  change EStateM.bind first rest state = _
  rw [EStateM.bind, done]

theorem bind_of_error {ε τ α β : Type} {first : EStateM ε τ α} {state last : τ} {error : ε}
    (failed : first state = .error error last) (rest : α → EStateM ε τ β) :
    (first >>= rest) state = .error error last := by
  change EStateM.bind first rest state = _
  rw [EStateM.bind, failed]

/-- An operation in steps fails in the first one or in the rest. -/
theorem error_of_bind {ε τ α β : Type} {first : EStateM ε τ α} {rest : α → EStateM ε τ β}
    {state last : τ} {error : ε} (failed : (first >>= rest) state = .error error last) :
    first state = .error error last ∨
      ∃ middle between, first state = .ok middle between ∧
        rest middle between = .error error last := by
  change EStateM.bind first rest state = _ at failed
  unfold EStateM.bind at failed
  split at failed
  · rename_i middle between taken
    exact Or.inr ⟨middle, between, taken, failed⟩
  · rename_i error' between failed'
    obtain ⟨rfl, rfl⟩ := EStateM.Result.error.inj failed
    exact Or.inl failed'

theorem change_failed {fail : FileError → ε}
    {act : FileTree → Location → Except FileError FileTree} {error : ε}
    (failed : Disk.change fail act w = .error error after) : after = w := by
  unfold Disk.change at failed
  split at failed
  · cases failed
  · exact (EStateM.Result.error.inj failed).2.symm

theorem make_directories_ok {fail : FileError → ε} {answer : Unit}
    (done : Disk.makeDirectories fail directory w = .ok answer after) :
    ∃ files, w.files.makeDirectories w.here directory = (.ok (), files) ∧
      after = { w with files } := by
  unfold Disk.makeDirectories at done
  split at done
  · rename_i files made
    exact ⟨files, made, (EStateM.Result.ok.inj done).2.symm⟩
  · cases done

theorem directories_made (fail : FileError → ε) {files : FileTree}
    (made : w.files.makeDirectories w.here directory = (.ok (), files)) :
    Disk.makeDirectories fail directory w = .ok () { w with files } := by
  simp only [Disk.makeDirectories, made]

theorem directories_unmade (fail : FileError → ε) {files : FileTree} {cause : FileError}
    (unmade : w.files.makeDirectories w.here directory = (.error cause, files)) :
    Disk.makeDirectories fail directory w = .error (fail cause) { w with files } := by
  simp only [Disk.makeDirectories, unmade]

/-- A whole file that is written is written under a temporary name and moved into place. -/
theorem write_whole_ok {fail : Path → FileError → ε}
    (done : Disk.writeWhole fail directory name content w = .ok written after) :
    ∃ files files', w.files.write w.here
        (directory.join ⟨s!".{name}.{w.process}.{w.issued}.tmp"⟩) content = .ok files ∧
      files.moveFile w.here (directory.join ⟨s!".{name}.{w.process}.{w.issued}.tmp"⟩)
        (directory.join ⟨name⟩) = .ok files' ∧
      after = { w with files := files', issued := w.issued + 1 } := by
  obtain ⟨temporary, issued, naming, done⟩ := ok_of_bind done
  obtain ⟨rfl, rfl⟩ := EStateM.Result.ok.inj naming
  obtain ⟨⟨⟩, filled, writing, done⟩ := ok_of_bind done
  obtain ⟨⟨⟩, moved, moving, done⟩ := ok_of_bind done
  obtain ⟨-, rfl⟩ := EStateM.Result.ok.inj done
  obtain ⟨files, wrote, rfl⟩ := change_ok writing
  obtain ⟨files', moved, rfl⟩ := change_ok moving
  exact ⟨files, files', wrote, moved, rfl⟩

/-- Where both can be done, a file is written as a whole. -/
theorem writes_whole (fail : Path → FileError → ε) {temporary : String} {files files' : FileTree}
    (naming : s!".{name}.{w.process}.{w.issued}.tmp" = temporary)
    (wrote : w.files.write w.here (directory.join ⟨temporary⟩) content = .ok files)
    (moved : files.moveFile w.here (directory.join ⟨temporary⟩) (directory.join ⟨name⟩) =
      .ok files') :
    Disk.writeWhole fail directory name content w =
      .ok (directory.join ⟨name⟩) { w with files := files', issued := w.issued + 1 } := by
  have named : Disk.temporaryName name w =
      (.ok temporary { w with issued := w.issued + 1 } : EStateM.Result ε Workspace String) := by
    rw [Disk.temporaryName, naming]
  have written : Disk.write (fail (directory.join ⟨temporary⟩)) (directory.join ⟨temporary⟩) content
      { w with issued := w.issued + 1 } = .ok () { w with files, issued := w.issued + 1 } := by
    simp only [Disk.write, Disk.change, wrote]
  have placed : Disk.moveFile (fail (directory.join ⟨name⟩)) (directory.join ⟨temporary⟩)
      (directory.join ⟨name⟩) { w with files, issued := w.issued + 1 } =
        .ok () { w with files := files', issued := w.issued + 1 } := by
    simp only [Disk.moveFile, Disk.change, moved]
  exact (bind_of_ok named _).trans ((bind_of_ok written _).trans (bind_of_ok placed _))

/-- What is written as a whole is read again. -/
theorem write_whole_found {fail : Path → FileError → ε}
    (unlinked : Unlinked w.files w.here (directory.join ⟨name⟩))
    (done : Disk.writeWhole fail directory name content w = .ok written after) :
    after.here = w.here ∧ KeepsWays w.files after.files ∧
      after.read (directory.join ⟨name⟩) = .ok content := by
  obtain ⟨files, files', wrote, moved, rfl⟩ := write_whole_ok done
  obtain ⟨ways, links, location, executable, found⟩ := write_found wrote
  obtain ⟨ways', location', found'⟩ :=
    move_found moved found (unlinked_of_same_links links unlinked)
  refine ⟨rfl, keeps_ways_trans ways ways', ?_⟩
  simp only [Workspace.read, FileTree.read, found']

/-- A put writes the artifact of its response. -/
theorem artifact_of_put {response : Response} {version : String} {answer : Unit}
    (done : cache.put digest response version w = .ok answer after) :
    ∃ written, cache.writeArtifact digest Cache.resultName ⟨version, Codec.response response⟩ w =
      .ok written after := by
  obtain ⟨written, last, artifact, ended⟩ := ok_of_bind done
  obtain ⟨-, rfl⟩ := EStateM.Result.ok.inj ended
  exact ⟨written, artifact⟩

/-- An artifact that is written is read again, if no link stands in the place of its file. -/
theorem write_artifact_found (unlinked : Unlinked w.files w.here (cache.file digest name))
    (done : cache.writeArtifact digest name artifact w = .ok written after) :
    after.here = w.here ∧ KeepsWays w.files after.files ∧
      after.read (cache.file digest name) = .ok artifact.encode := by
  obtain ⟨⟨⟩, made, making, whole⟩ := ok_of_bind done
  obtain ⟨files, built, rfl⟩ := make_directories_ok making
  have grown := make_directories_grown w.files w.here (cache.directory digest)
  rw [built] at grown
  have unlinked : Unlinked files w.here (cache.file digest name) :=
    unlinked_of_same_links (same_links_of_grown grown) unlinked
  obtain ⟨here, ways, read⟩ := write_whole_found unlinked whole
  exact ⟨here, keeps_ways_trans (keeps_ways_of_grown grown) ways, read⟩

end Disks

end ContractBuild.WrittenFiles
