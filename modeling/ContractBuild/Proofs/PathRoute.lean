import ContractBuild.FileTree.Change
import ContractBuild.Proofs.PathWalk

/-! Where a path leads once the directories on the way are made. This depends on the links of a tree
and on nothing else, so it stays as it is through every change that makes, writes and removes files
and directories but leaves links alone. -/
namespace ContractBuild.PathRoute
open FileTree PathWalk

/-- Where pieces lead if whatever is missing on the way is a directory. With `follow` unset, a link
that the path ends in is not replaced by its target. -/
def route (tree : FileTree) (follow : Bool) (links : Nat) (at_ : Location)
    (pieces : List String) : Option Location :=
  match pieces with
  | [] => some at_
  | piece :: rest =>
    if Path.isIdle piece then route tree follow links at_ rest
    else if piece = ".." then route tree follow links at_.dropLast rest
    else
      match tree.get? (at_ ++ [piece]) with
      | some (.link target) =>
        if rest.all (· = "") ∧ ¬ follow then some (at_ ++ [piece])
        else
          match links with
          | 0 => none
          | links + 1 =>
            route tree follow links (if target.isAbsolute then [] else at_) (target.pieces ++ rest)
      | _ => route tree follow links (at_ ++ [piece]) rest
termination_by (links, pieces.length)

/-- Two trees have the same links. -/
def SameLinks (tree after : FileTree) : Prop :=
  ∀ location target, after.get? location = some (.link target) ↔
    tree.get? location = some (.link target)

theorem same_links_trans {tree middle after : FileTree} (first : SameLinks tree middle)
    (second : SameLinks middle after) : SameLinks tree after :=
  fun location target => (second location target).trans (first location target)

section Steps
variable {tree after : FileTree} {follow : Bool} {links : Nat} {at_ : Location} {piece : String}
  {rest : List String}

theorem route_idle (idle : Path.isIdle piece = true) :
    route tree follow links at_ (piece :: rest) = route tree follow links at_ rest := by
  rw [route, if_pos idle]

theorem route_up : route tree follow links at_ (".." :: rest) =
    route tree follow links at_.dropLast rest := by
  rw [route, if_neg (by decide), if_pos rfl]

theorem route_on (busy : Path.isIdle piece = false) (inner : piece ≠ "..")
    (solid : ∀ target, tree.get? (at_ ++ [piece]) ≠ some (.link target)) :
    route tree follow links at_ (piece :: rest) =
      route tree follow links (at_ ++ [piece]) rest := by
  rw [route, if_neg (by simp [busy]), if_neg inner]
  split
  · rename_i target there
    exact absurd there (solid target)
  · rfl

theorem route_link (busy : Path.isIdle piece = false) (inner : piece ≠ "..") {target : Path}
    (there : tree.get? (at_ ++ [piece]) = some (.link target)) :
    route tree follow links at_ (piece :: rest) =
      if rest.all (· = "") ∧ ¬ follow then some (at_ ++ [piece])
      else
        match links with
        | 0 => none
        | links + 1 =>
          route tree follow links (if target.isAbsolute then [] else at_)
            (target.pieces ++ rest) := by
  rw [route, if_neg (by simp [busy]), if_neg inner]
  simp only [there]

/-- Where a path leads depends on links only. -/
theorem route_of_same_links (same : SameLinks tree after) (follow : Bool) (links : Nat)
    (at_ : Location) (pieces : List String) :
    route after follow links at_ pieces = route tree follow links at_ pieces := by
  fun_induction route tree follow links at_ pieces
  case case1 => rw [route]
  case case2 idle ih => rw [route_idle idle, ih]
  case case3 ih => rw [route_up, ih]
  case case4 busy inner target there final =>
    rw [route_link (by simpa using busy) inner ((same _ _).mpr there), if_pos final]
  case case5 busy inner target there on =>
    rw [route_link (by simpa using busy) inner ((same _ _).mpr there), if_neg on]
  case case6 busy inner target there on links ih =>
    rw [route_link (by simpa using busy) inner ((same _ _).mpr there), if_neg on]
    exact ih
  case case7 busy inner solid ih =>
    rw [route_on (by simpa using busy) inner fun target there => solid target ((same _ _).mp there),
      ih]

end Steps

section Walks
variable {tree : FileTree} {follow : Bool} {links : Nat} {at_ reached : Location} {node found : Node}
  {pieces : List String}

/-- Idle pieces lead nowhere else. -/
theorem route_idles {at_ : Location} (idle : ∀ piece ∈ pieces, Path.isIdle piece = true) :
    route tree follow links at_ pieces = some at_ := by
  induction pieces with
  | nil => rw [route]
  | cons piece rest ih =>
    rw [route_idle (idle piece (by simp))]
    exact ih fun other inside => idle other (List.mem_cons_of_mem _ inside)

private theorem route_of_empty {at_ : Location} (empty : pieces.all (· = "") = true) :
    route tree follow links at_ pieces = some at_ := by
  refine route_idles fun piece inside => ?_
  have blank : piece = "" := by simpa using List.all_eq_true.mp empty piece inside
  simp [blank, Path.isIdle]

/-- Where a walk comes to something that is there, its path leads. -/
theorem route_of_walk (walked : walk tree follow links at_ node pieces = .ok (.taken reached found)) :
    route tree follow links at_ pieces = some reached := by
  fun_induction walk tree follow links at_ node pieces
  case case1 =>
    obtain ⟨rfl, rfl⟩ := Spot.taken.inj (Except.ok.inj walked)
    rw [route]
  case case2 => cases walked
  case case3 idle ih => rw [route_idle idle, ih walked]
  case case4 ih => rw [route_up, ih walked]
  case case5 => cases walked
  case case6 => cases walked
  case case7 => cases walked
  case case8 busy inner _ next final target there stays =>
    obtain ⟨rfl, rfl⟩ := Spot.taken.inj (Except.ok.inj walked)
    rw [route_link (by simpa using busy) inner there, if_pos stays]
  case case9 => cases walked
  case case10 busy inner _ next final target there on links ih =>
    rw [route_link (by simpa using busy) inner there, if_neg on]
    exact ih walked
  case case11 busy inner _ next found solid there ih =>
    rw [route_on (by simpa using busy) inner fun target link => solid target ?_, ih walked]
    exact Option.some.inj (there.symm.trans link)

/-- Where a walk comes to the last name and nothing is there, its path leads. -/
theorem route_of_free {slash : Bool}
    (walked : walk tree follow links at_ node pieces = .ok (.free reached slash)) :
    route tree follow links at_ pieces = some reached ∧ tree.get? reached = none ∧ reached ≠ [] := by
  fun_induction walk tree follow links at_ node pieces
  case case1 => cases walked
  case case2 => cases walked
  case case3 idle ih =>
    rw [route_idle idle]
    exact ih walked
  case case4 ih =>
    rw [route_up]
    exact ih walked
  case case5 => cases walked
  case case6 busy inner _ next final absent empty =>
    obtain ⟨rfl, rfl⟩ := Spot.free.inj (Except.ok.inj walked)
    refine ⟨?_, absent, by simp [next]⟩
    rw [route_on (by simpa using busy) inner fun target link => ?_, route_of_empty empty]
    cases absent.symm.trans link
  case case7 => cases walked
  case case8 => cases walked
  case case9 => cases walked
  case case10 busy inner _ next final target there on links ih =>
    rw [route_link (by simpa using busy) inner there, if_neg on]
    exact ih walked
  case case11 busy inner _ next found solid there ih =>
    rw [route_on (by simpa using busy) inner fun target link => solid target ?_]
    · exact ih walked
    · exact Option.some.inj (there.symm.trans link)

/-- What the route along a first part decides about routes that go on after it: they start where the
first part leads, or else they lead nowhere. -/
theorem route_append (tree : FileTree) (links : Nat) (at_ : Location) (first : List String) :
    (∃ reached left, left ≤ links ∧ route tree true links at_ first = some reached ∧
        ∀ follow rest, GoesOn rest ∨ follow = true →
          route tree follow links at_ (first ++ rest) = route tree follow left reached rest) ∨
      (route tree true links at_ first = none ∧ ∀ follow rest, GoesOn rest ∨ follow = true →
          route tree follow links at_ (first ++ rest) = none) := by
  have through : ∀ {follow : Bool} {before rest : List String}, GoesOn rest ∨ follow = true →
      ¬((before ++ rest).all (· = "") = true ∧ ¬ follow = true) := by
    rintro follow before rest (on | followed)
    · simp [not_final on]
    · simp [followed]
  fun_induction route tree true links at_ first
  case case1 => exact Or.inl ⟨_, _, Nat.le_refl _, rfl, fun _ _ _ => rfl⟩
  case case2 idle ih => simpa only [List.cons_append, route_idle idle] using ih
  case case3 ih => simpa only [List.cons_append, route_up] using ih
  case case4 stays => simp at stays
  case case5 busy inner target there _ =>
    refine Or.inr ⟨rfl, fun follow rest' on => ?_⟩
    rw [List.cons_append, route_link (by simpa using busy) inner there, if_neg (through on)]
  case case6 at_ piece rest busy inner target there _ links ih =>
    simp only [dite_eq_ite] at ih ⊢
    have step : ∀ follow rest', GoesOn rest' ∨ follow = true →
        route tree follow (links + 1) at_ (piece :: rest ++ rest') =
          route tree follow links (if target.isAbsolute then [] else at_)
            (target.pieces ++ rest ++ rest') := by
      intro follow rest' on
      rw [List.cons_append, route_link (by simpa using busy) inner there, List.append_assoc,
        if_neg (through on)]
    rcases ih with ⟨reached, left, less, led, onward⟩ | ⟨missed, fails⟩
    · refine Or.inl ⟨reached, left, Nat.le_succ_of_le less, led, fun follow rest' on => ?_⟩
      rw [step follow rest' on, onward follow rest' on]
    · refine Or.inr ⟨missed, fun follow rest' on => ?_⟩
      rw [step follow rest' on, fails follow rest' on]
  case case7 links at_ piece rest busy inner solid ih =>
    have step : ∀ follow rest', route tree follow links at_ (piece :: rest ++ rest') =
        route tree follow links (at_ ++ [piece]) (rest ++ rest') :=
      fun follow rest' => route_on (by simpa using busy) inner solid
    simpa only [step] using ih

end Walks

section Changes
variable {tree made after : FileTree} {here location : Location} {path : Path}

/-- A tree has grown: directories have been made where nothing was. -/
def Grown (tree after : FileTree) : Prop :=
  ∀ location, after.get? location = tree.get? location ∨
    (tree.get? location = none ∧ after.get? location = some .directory)

theorem grown_refl (tree : FileTree) : Grown tree tree := fun _ => Or.inl rfl

theorem grown_trans (first : Grown tree made) (second : Grown made after) : Grown tree after := by
  intro location
  rcases second location with same | ⟨absent, there⟩
  · rw [same]
    exact first location
  · rcases first location with same | ⟨-, there'⟩
    · exact Or.inr ⟨same ▸ absent, there⟩
    · rw [there'] at absent
      cases absent

theorem same_links_of_grown (grown : Grown tree after) : SameLinks tree after := by
  intro location target
  rcases grown location with same | ⟨absent, there⟩
  · rw [same]
  · simp [absent, there]

/-- Setting a location that holds no link to something that is no link leaves the links alone. -/
theorem same_links_set {node : Node} (inner : location ≠ [])
    (before : ∀ target, tree.get? location ≠ some (.link target))
    (solid : ∀ target, node ≠ .link target) : SameLinks tree (tree.set location node) := by
  intro other target
  rw [get?_set _ _ _ _ inner]
  split
  · rename_i same
    subst same
    simp [before, solid]
  · rfl

theorem same_links_erase (inner : location ≠ [])
    (before : ∀ target, tree.get? location ≠ some (.link target)) :
    SameLinks tree (tree.erase location) := by
  intro other target
  rw [get?_erase _ _ _ inner]
  split
  · rename_i same
    subst same
    simp [before]
  · rfl

/-- A place that a walk finds free holds nothing. -/
theorem find_free {follow slash : Bool}
    (found : tree.find follow here path = .ok (.free location slash)) :
    tree.get? location = none ∧ location ≠ [] :=
  (route_of_free (walk_of_find found)).2

theorem make_directory_grown (done : tree.makeDirectory here path = .ok made) :
    Grown tree made := by
  unfold makeDirectory at done
  split at done
  · cases done
  · rename_i location slash found
    obtain rfl := Except.ok.inj done
    obtain ⟨absent, inner⟩ := find_free found
    intro other
    rw [get?_set _ _ _ _ inner]
    split
    · rename_i same
      subst same
      exact Or.inr ⟨absent, rfl⟩
    · exact Or.inl rfl
  · cases done

/-- Making a chain of directories changes nothing else, whether it succeeds or not. -/
theorem make_directories_grown (tree : FileTree) (here : Location) (path : Path) :
    Grown tree (tree.makeDirectories here path).2 := by
  fun_induction makeDirectories tree here path
  case case1 => exact grown_refl tree
  case case2 => exact make_directory_grown ‹_›
  case case3 => exact grown_refl tree
  case case4 failed ih =>
    rw [failed] at ih
    exact ih
  case case5 parent above partly done made done' ih =>
    rw [done] at ih
    exact grown_trans ih (make_directory_grown done')
  case case6 parent above partly done error failed ih =>
    rw [done] at ih
    exact ih
  case case7 => exact grown_refl tree

end Changes

end ContractBuild.PathRoute
