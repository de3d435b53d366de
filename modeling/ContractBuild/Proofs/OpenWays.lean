import ContractBuild.Proofs.ImportTargets
import ContractBuild.Proofs.PathLengths
import ContractBuild.Proofs.ShownNames
import ContractBuild.Proofs.WrittenFiles

/-! Ways that can be opened. A path leads by what is there to a directory, and from there on by
names each of which is a directory or free: then the directories that are missing on the way can be
made, and nothing is made for it anywhere else. -/
namespace ContractBuild.OpenWays
open FileTree PathLengths PathPieces PathRoute PathWalk ShownNames WrittenFiles

variable {tree after : FileTree} {follow : Bool} {links : Nat}
  {at_ middle ending location here : Location} {node : Node} {last : String}
  {pieces front rest outer : List String} {path : Path}

section Names

/-- Pieces lead from a directory to a location by names each of which is a directory or free. -/
inductive Clear (tree : FileTree) : Location → List String → Location → Prop where
  | here (at_ : Location) : Clear tree at_ [] at_
  | idle {at_ ending : Location} {piece : String} {rest : List String}
      (idle : Path.isIdle piece = true) (onward : Clear tree at_ rest ending) :
      Clear tree at_ (piece :: rest) ending
  | name {at_ ending : Location} {piece : String} {rest : List String} (isName : IsName piece)
      (open_ : ∀ node, tree.get? (at_ ++ [piece]) = some node → node = .directory)
      (onward : Clear tree (at_ ++ [piece]) rest ending) : Clear tree at_ (piece :: rest) ending

theorem clear_within (clear : Clear tree at_ pieces ending) : at_ <+: ending := by
  induction clear with
  | here => exact List.prefix_rfl
  | idle _ _ ih => exact ih
  | name _ _ _ ih => exact (List.prefix_append ..).trans ih

theorem clear_append (first : Clear tree at_ front middle)
    (second : Clear tree middle rest ending) : Clear tree at_ (front ++ rest) ending := by
  induction first with
  | here => exact second
  | idle idle _ ih => exact .idle idle (ih second)
  | name isName open_ _ ih => exact .name isName open_ (ih second)

theorem clear_cut (clear : Clear tree at_ (front ++ rest) ending) :
    ∃ middle, Clear tree at_ front middle ∧ Clear tree middle rest ending := by
  induction front generalizing at_ with
  | nil => exact ⟨at_, .here at_, clear⟩
  | cons piece front ih =>
    cases clear with
    | idle idle onward =>
      obtain ⟨middle, first, second⟩ := ih onward
      exact ⟨middle, .idle idle first, second⟩
    | name isName open_ onward =>
      obtain ⟨middle, first, second⟩ := ih onward
      exact ⟨middle, .name isName open_ first, second⟩

/-- A last name that is no idle piece is the end. -/
theorem clear_last (busy : Path.isIdle last = false) (clear : Clear tree at_ [last] ending) :
    IsName last ∧ ending = at_ ++ [last] := by
  cases clear with
  | idle idle => simp [busy] at idle
  | name isName open_ onward =>
    cases onward
    exact ⟨isName, rfl⟩

/-- Where nothing but a directory was, there is nothing else once a directory is made there. -/
theorem open_still (now : after.get? location = tree.get? location ∨
      after.get? location = some .directory)
    (open_ : ∀ node, tree.get? location = some node → node = .directory) :
    ∀ node, after.get? location = some node → node = .directory := by
  intro node there
  rcases now with same | made
  · exact open_ node (same.symm.trans there)
  · exact (Option.some.inj (made.symm.trans there)).symm

/-- A way stays clear if nothing but directories comes to be on it. -/
theorem clear_later (clear : Clear tree at_ pieces ending)
    (still : ∀ location, location <+: ending →
      (∀ node, tree.get? location = some node → node = .directory) →
        ∀ node, after.get? location = some node → node = .directory) :
    Clear after at_ pieces ending := by
  induction clear with
  | here => exact .here _
  | idle idle _ ih => exact .idle idle (ih still)
  | name isName open_ onward ih =>
    exact .name isName (still _ (clear_within onward) open_) (ih still)

/-- There are no links on a clear way. -/
theorem clear_route (clear : Clear tree at_ pieces ending) (follow : Bool) (links : Nat) :
    route tree follow links at_ pieces = some ending := by
  induction clear with
  | here => rw [route]
  | idle idle _ ih => rw [route_idle idle, ih]
  | name isName open_ _ ih =>
    rw [route_on isName.busy isName.inner, ih]
    intro target link
    cases open_ _ link

/-- What a walk on a clear way comes to: the directory at its end, the last name free, or a missing
one before that. -/
inductive Came (ending : Location) : Except FileError Spot → Prop where
  | there : Came ending (.ok (.taken ending .directory))
  | free (slash : Bool) : Came ending (.ok (.free ending slash))
  | missing : Came ending (.error .notFound)

theorem clear_walk (clear : Clear tree at_ pieces ending) :
    ∃ came, Came ending came ∧
      ∀ follow links, walk tree follow links at_ .directory pieces = came := by
  induction clear with
  | here at_ => exact ⟨_, .there, fun _ _ => by rw [walk]⟩
  | idle idle _ ih =>
    obtain ⟨came, kind, walked⟩ := ih
    exact ⟨came, kind, fun follow links => by rw [walk_idle idle, walked]⟩
  | @name at_ ending piece rest isName open_ onward ih =>
    cases there : tree.get? (at_ ++ [piece]) with
    | none =>
      by_cases blank : rest.all (· = "") = true
      · have end_ := clear_route onward true 0
        rw [route_idles fun piece inside => ?_] at end_
        · obtain rfl := Option.some.inj end_
          exact ⟨_, .free _, fun follow links => by rw [walk_absent isName there, if_pos blank]⟩
        · have empty : piece = "" := by simpa using List.all_eq_true.mp blank piece inside
          rw [empty]
          rfl
      · exact ⟨_, .missing, fun follow links => by rw [walk_absent isName there, if_neg blank]⟩
    | some node =>
      obtain rfl := open_ node there
      obtain ⟨came, kind, walked⟩ := ih
      exact ⟨came, kind, fun follow links => by rw [walk_found isName there (by simp), walked]⟩

/-- A clear way to a free name does not come to a directory. -/
theorem clear_walk_free (clear : Clear tree at_ pieces middle) (isName : IsName last)
    (absent : tree.get? (middle ++ [last]) = none) (outer : List String) (follow : Bool)
    (links : Nat) :
    walk tree follow links at_ .directory (pieces ++ last :: outer) = .error .notFound ∨
      ∃ slash, walk tree follow links at_ .directory (pieces ++ last :: outer) =
        .ok (.free (middle ++ [last]) slash) := by
  induction clear with
  | here at_ =>
    rw [List.nil_append, walk_absent isName absent]
    split
    · exact Or.inr ⟨_, rfl⟩
    · exact Or.inl rfl
  | idle idle _ ih =>
    rw [List.cons_append, walk_idle idle]
    exact ih absent
  | @name at_ _ piece rest isName' open_ onward ih =>
    cases there : tree.get? (at_ ++ [piece]) with
    | none =>
      left
      rw [List.cons_append, walk_absent isName' there, if_neg]
      have visible : last ≠ "" := by
        rintro rfl
        exact absurd isName.busy (by decide)
      simp [visible]
    | some node =>
      obtain rfl := open_ node there
      rw [List.cons_append, walk_found isName' there (by simp)]
      exact ih absent

end Names

section Leading

/-- Pieces lead from the root by what is there to a directory, and from there on by names that are
directories or free. -/
def Leads (tree : FileTree) (pieces : List String) (ending : Location) : Prop :=
  ∃ front rest above, pieces = front ++ rest ∧
    walk tree true maxLinks [] .directory front = .ok (.taken above .directory) ∧
    Clear tree above rest ending

theorem leads_on (leads : Leads tree pieces middle) (clear : Clear tree middle rest ending) :
    Leads tree (pieces ++ rest) ending := by
  obtain ⟨front, names, above, rfl, walked, onward⟩ := leads
  exact ⟨front, names ++ rest, above, List.append_assoc .., walked, clear_append onward clear⟩

theorem leads_later (leads : Leads tree pieces ending) (ways : KeepsWays tree after)
    (still : ∀ location, location <+: ending →
      (∀ node, tree.get? location = some node → node = .directory) →
        ∀ node, after.get? location = some node → node = .directory) :
    Leads after pieces ending := by
  obtain ⟨front, names, above, rfl, walked, onward⟩ := leads
  exact ⟨front, names, above, rfl, walk_later ways rfl walked (.kept above),
    clear_later onward still⟩

theorem leads_route (leads : Leads tree pieces ending) :
    route tree true maxLinks [] pieces = some ending := by
  obtain ⟨front, names, above, rfl, walked, onward⟩ := leads
  rcases route_append tree maxLinks [] front with ⟨reached, left, -, led, goes⟩ | ⟨missed, -⟩
  · obtain rfl := Option.some.inj (led.symm.trans (route_of_walk walked))
    rw [goes true names (Or.inr rfl), clear_route onward]
  · cases missed.symm.trans (route_of_walk walked)

private theorem there_of_walk {found : Node}
    (walked : walk tree true maxLinks [] .directory pieces = .ok (.taken location found)) :
    tree.get? location = some found := by
  by_cases inner : found = .directory
  · subst inner
    exact (walk_standing (standing_of_solid solid_top) walked).solid rfl location List.prefix_rfl
  · exact taken_there inner walked

/-- What is free on the way is on the way to its end. -/
theorem leads_above (leads : Leads tree pieces ending) (before : front <+: pieces)
    (led : route tree true maxLinks [] front = some location)
    (absent : tree.get? location = none) : location <+: ending := by
  obtain ⟨first, names, above, rfl, walked, onward⟩ := leads
  rcases List.prefix_or_prefix_of_prefix before (List.prefix_append ..) with
    ⟨more, rfl⟩ | ⟨inner, rfl⟩
  · obtain ⟨reached, found, there⟩ := walk_prefix walked
    obtain rfl := Option.some.inj (led.symm.trans (route_of_walk there))
    cases absent.symm.trans (there_of_walk there)
  · obtain ⟨more, rfl⟩ := (List.prefix_append_right_inj first).mp before
    obtain ⟨middle, here, beyond⟩ := clear_cut onward
    have led' := leads_route ⟨first, inner, above, rfl, walked, here⟩
    obtain rfl := Option.some.inj (led.symm.trans led')
    exact clear_within beyond

/-- A walk that goes on after the pieces goes on from the directory that they lead to. -/
theorem leads_onward (leads : Leads tree pieces ending) :
    ∃ above names left, Clear tree above names ending ∧ ∀ follow more, GoesOn more →
      walk tree follow maxLinks [] .directory (pieces ++ more) =
        walk tree follow left above .directory (names ++ more) := by
  obtain ⟨front, names, above, rfl, walked, onward⟩ := leads
  rcases walk_append tree maxLinks [] .directory front with
    ⟨reached, found, left, -, came, goes⟩ | ⟨missed, -⟩
  · obtain ⟨rfl, rfl⟩ := Spot.taken.inj (Except.ok.inj (came.symm.trans walked))
    refine ⟨reached, names, left, onward, fun follow more on => ?_⟩
    obtain ⟨piece, inside, visible⟩ := on
    rw [List.append_assoc]
    exact goes follow _ (Or.inl ⟨piece, List.mem_append_right _ inside, visible⟩)
  · exact absurd walked (missed _ _)

/-- A first part of the pieces leads to a directory that is there, or by names. -/
theorem leads_cut (leads : Leads tree (front ++ rest) ending) :
    (∃ reached, walk tree true maxLinks [] .directory front = .ok (.taken reached .directory)) ∨
      ∃ before last middle reached, front = before ++ [last] ∧ Leads tree before middle ∧
        Clear tree middle [last] reached := by
  obtain ⟨first, names, above, whole, walked, onward⟩ := leads
  rcases List.append_eq_append_iff.mp whole with ⟨more, rfl, rfl⟩ | ⟨inner, rfl, rfl⟩
  · left
    rcases walk_append tree maxLinks [] .directory front with
      ⟨reached, found, left, -, came, goes⟩ | ⟨missed, -⟩
    · refine ⟨reached, ?_⟩
      rw [goes true more (Or.inr rfl)] at walked
      by_cases inside : found = .directory
      · rw [came, inside]
      · cases more with
        | nil =>
          rw [walk] at walked
          exact absurd (Spot.taken.inj (Except.ok.inj walked)).2 inside
        | cons piece more =>
          rw [walk_outside inside] at walked
          cases walked
    · obtain ⟨reached, found, there⟩ := walk_prefix walked
      exact absurd there (missed _ _)
  · obtain ⟨middle, here, -⟩ := clear_cut onward
    rcases List.eq_nil_or_concat' inner with rfl | ⟨before, last, rfl⟩
    · exact Or.inl ⟨above, by rw [List.append_nil, walked]⟩
    · obtain ⟨before_, first_, last_⟩ := clear_cut here
      exact Or.inr ⟨first ++ before, last, before_, middle, (List.append_assoc ..).symm,
        ⟨first, before, above, rfl, walked, first_⟩, last_⟩

end Leading

section Making

/-- An absolute path whose steps end in a name is these pieces, but for a slash at the end. -/
theorem pieces_of_steps (own : steps path = "" :: (pieces ++ [last])) :
    path.isAbsolute = true ∧ ∃ outer, (∀ piece ∈ outer, piece = "") ∧
      path.pieces = "" :: (pieces ++ last :: outer) := by
  have whole : ∃ outer, (∀ piece ∈ outer, piece = "") ∧
      path.pieces = "" :: (pieces ++ last :: outer) := by
    rcases pieces_eq_steps path with same | same
    · exact ⟨[], by simp, by rw [same, own]⟩
    · exact ⟨[""], by simp, by rw [same, own]; simp⟩
  obtain ⟨outer, blank, shape⟩ := whole
  exact ⟨(absolute_iff path).mpr ⟨_, by simp, shape⟩, outer, blank, shape⟩

/-- Slashes at the end of a way change nothing. -/
theorem clear_closed (clear : Clear tree at_ [last] ending)
    (blank : ∀ piece ∈ outer, piece = "") : Clear tree at_ (last :: outer) ending := by
  have closing : Clear tree ending outer ending := by
    induction outer with
    | nil => exact .here ending
    | cons piece outer ih =>
      refine .idle ?_ (ih fun other inside => blank other (List.mem_cons_of_mem _ inside))
      rw [blank piece (List.mem_cons_self ..)]
      rfl
  exact clear_append clear closing

private theorem goes_on (busy : Path.isIdle last = false) (outer : List String) :
    GoesOn (last :: outer) := by
  refine ⟨last, List.mem_cons_self .., ?_⟩
  rintro rfl
  simp [Path.isIdle] at busy

/-- What a path on an open way comes to, whether a link at its end is followed or not. -/
theorem find_open (accepted : Accepted path) (own : steps path = "" :: (pieces ++ [last]))
    (busy : Path.isIdle last = false) (leads : Leads tree pieces middle)
    (clear : Clear tree middle [last] ending) :
    ∃ came, Came ending came ∧ ∀ follow here, tree.find follow here path = came := by
  obtain ⟨absolute, outer, blank, shape⟩ := pieces_of_steps own
  obtain ⟨above, names, left, onward, goes⟩ := leads_onward leads
  obtain ⟨came, kind, walked⟩ := clear_walk (clear_append onward (clear_closed clear blank))
  refine ⟨came, kind, fun follow here => ?_⟩
  rw [find_accepted accepted, if_pos absolute, shape, walk_idle (by decide),
    goes follow _ (goes_on busy outer), walked]

/-- A path that leads to a free name by an open way is not found. -/
theorem lookup_free (accepted : Accepted path) (own : steps path = "" :: (pieces ++ last :: outer))
    (isName : IsName last) (leads : Leads tree pieces middle)
    (absent : tree.get? (middle ++ [last]) = none) (here : Location) :
    tree.lookup here path = .error .notFound := by
  obtain ⟨outer, shape⟩ : ∃ outer, path.pieces = "" :: (pieces ++ last :: outer) := by
    rcases pieces_eq_steps path with same | same
    · exact ⟨outer, by rw [same, own]⟩
    · exact ⟨outer ++ [""], by rw [same, own]; simp⟩
  have absolute : path.isAbsolute = true := (absolute_iff path).mpr ⟨_, by simp, shape⟩
  obtain ⟨above, names, left, onward, goes⟩ := leads_onward leads
  unfold lookup
  rw [find_accepted accepted, if_pos absolute, shape, walk_idle (by decide),
    goes true _ (goes_on isName.busy outer)]
  rcases clear_walk_free onward isName absent outer true left with missing | ⟨slash, free⟩
  · rw [missing]
  · rw [free]

/-- A directory that is there needs not be made. -/
theorem makes_there (looked : tree.lookup here path = .ok (location, .directory)) :
    tree.makeDirectories here path = (.ok (), tree) := by
  obtain ⟨accepted, walked⟩ := lookup_ok_iff.mp looked
  obtain ⟨reached, found, unfollowed⟩ := walk_unfollowed walked
  have taken : tree.makeDirectory here path = .error .exists := by
    rw [makeDirectory, find_accepted accepted, unfollowed]
  have there : tree.isDirectory here path = true := by
    rw [isDirectory, looked]
  rw [makeDirectories, if_neg accepted.nonempty, taken]
  simp only [there, if_true]

/-- A path that the system does not take makes no directories. -/
theorem makes_nothing (visible : path.text ≠ "") (refused : ¬ Accepted path) :
    ∃ error, tree.makeDirectories here path = (.error error, tree) := by
  have unfound : ∃ error, error ≠ .notFound ∧
      ∀ follow, tree.find follow here path = .error error := by
    by_cases zero : '\x00' ∈ path.text.toList
    · exact ⟨.zeroInName, by simp, fun follow => by simp [find, zero]⟩
    · by_cases long : Text.byteLength path.text.toList > maxPathBytes
      · exact ⟨.nameTooLong, by simp, fun follow => by simp [find, zero, visible, long]⟩
      · exact absurd ⟨zero, visible, Nat.not_lt.mp long⟩ refused
  obtain ⟨error, other, unfound⟩ := unfound
  have absent : tree.isDirectory here path = false := by
    rw [isDirectory, lookup, unfound]
  refine ⟨error, ?_⟩
  rw [makeDirectories, if_neg visible, makeDirectory, unfound]
  cases error <;> simp_all

/-- The system takes the parent of an absolute path that it takes. -/
theorem accepted_of_parent {parent : Path} (found : path.parent? = some parent)
    (absolute : path.isAbsolute = true) (accepted : Accepted path) : Accepted parent := by
  obtain ⟨⟨inner, last, outer, whole, -⟩, same⟩ := pieces_of_parent found
  have visible : parent.text ≠ "" := by
    intro blank
    rw [absolute] at same
    simp [Path.isAbsolute, blank] at same
  refine ⟨fun zero => accepted.whole ?_, visible, ?_⟩
  · obtain ⟨piece, inside, zero⟩ := (mem_text_iff (by decide)).mp zero
    refine (mem_text_iff (by decide)).mpr ⟨piece, ?_, zero⟩
    rcases pieces_eq_steps parent with own | own
    · rw [whole, ← own]
      simp [inside]
    · rw [own] at inside
      rcases List.mem_append.mp inside with inside | inside
      · rw [whole]
        simp [inside]
      · rw [List.mem_singleton.mp inside] at zero
        simp at zero
  · have size_ := extent_pieces path
    have size' := extent_pieces parent
    have short := accepted.short
    have closed : extent parent.pieces ≤ extent (steps parent) + 1 := by
      rcases pieces_eq_steps parent with own | own
      · rw [← own]
        exact Nat.le_succ _
      · rw [own, extent_append]
        exact Nat.le_refl _
    rw [whole, List.append_assoc, extent_append, extent_append] at size_
    simp only [extent] at size_
    unfold size at size_ size'
    omega

/-- Where the last piece that leads on is, pieces are cut in one way only. -/
private theorem cut_unique {front' outer' : List String} {last' : String}
    (same : front ++ last :: outer = front' ++ last' :: outer') (visible : last ≠ "")
    (idle : ∀ piece ∈ outer, Path.isIdle piece = true) (busy : Path.isIdle last' = false)
    (blank : ∀ piece ∈ outer', piece = "") : front = front' := by
  rcases List.append_eq_append_iff.mp same with ⟨more, whole, tails⟩ | ⟨more, whole, tails⟩
  · cases more with
    | nil => rw [whole, List.append_nil]
    | cons piece more =>
      have inside : last' ∈ outer := by
        rw [(List.cons.inj tails).2]
        simp
      rw [idle last' inside] at busy
      cases busy
  · cases more with
    | nil => rw [whole, List.append_nil]
    | cons piece more =>
      have inside : last ∈ outer' := by
        rw [(List.cons.inj tails).2]
        simp
      exact absurd (blank last inside) visible

/-- The parent of a path has the steps before the last one, but for idle ones at their end. -/
private theorem steps_of_parent {parent : Path} (found : path.parent? = some parent)
    (own : steps path = "" :: (pieces ++ [last])) (busy : Path.isIdle last = false) :
    ∃ before inner outer, steps parent = "" :: before ∧ pieces = before ++ inner ∧
      (∀ piece ∈ inner, Path.isIdle piece = true) ∧ (∀ piece ∈ outer, piece = "") ∧
      path.pieces = steps parent ++ (inner ++ last :: outer) := by
  obtain ⟨absolute, outer, blank, shape⟩ := pieces_of_steps own
  obtain ⟨⟨inner, last', outer', whole, visible, idle, idle'⟩, same⟩ := pieces_of_parent found
  have start : ∃ before, steps parent = "" :: before := by
    obtain ⟨rest, nonempty, rooted⟩ := (absolute_iff parent).mp (same.trans absolute)
    rcases pieces_eq_steps parent with shown | shown
    · exact ⟨rest, shown.symm.trans rooted⟩
    · rw [rooted] at shown
      cases first : steps parent with
      | nil =>
        rw [first] at shown
        exact absurd (List.cons.inj shown).2 nonempty
      | cons piece before =>
        rw [first] at shown
        exact ⟨before, by rw [(List.cons.inj shown).1]⟩
  obtain ⟨before, start⟩ := start
  have cut : steps parent ++ inner = "" :: pieces := by
    refine cut_unique (whole.symm.trans shape) visible idle' busy blank
  have names : before ++ inner = pieces := by
    rw [start] at cut
    exact (List.cons.inj cut).2
  refine ⟨before, inner, outer, start, names.symm, idle, blank, ?_⟩
  rw [← List.append_assoc, cut, shape, List.cons_append]

/-- No name is missing before the last one if there is none before it. -/
private theorem walk_last (isName : IsName last) (blank : ∀ piece ∈ outer, piece = "") :
    walk tree false links at_ .directory (last :: outer) ≠ .error .notFound := by
  have final : outer.all (· = "") = true := by simpa using blank
  have closed : ∀ node, walk tree false links (at_ ++ [last]) node outer ≠ .error .notFound := by
    intro node
    by_cases inside : node = .directory
    · rw [inside, walk_idles fun piece among => by rw [blank piece among]; rfl]
      simp
    · cases outer with
      | nil => simp [walk]
      | cons piece outer =>
        rw [walk_outside inside]
        simp
  rw [walk, if_neg (by simp), if_neg (by simp [isName.busy]), if_neg isName.inner,
    if_neg (Nat.not_lt.mpr isName.short)]
  cases there : tree.get? (at_ ++ [last]) with
  | none => simp only [there, final, if_true, ne_eq, reduceCtorEq, not_false_eq_true]
  | some node =>
    cases node with
    | link target => simp [there, final]
    | directory =>
      simp only [there]
      exact closed _
    | file content executable =>
      simp only [there]
      exact closed _

/-- Once the parent of a path is there, no name is missing on the way to the last one. -/
private theorem find_beside {parent : Path} {inner : List String} (accepted : Accepted path)
    (absolute : path.isAbsolute = true)
    (whole : path.pieces = steps parent ++ (inner ++ last :: outer))
    (idle : ∀ piece ∈ inner, Path.isIdle piece = true) (blank : ∀ piece ∈ outer, piece = "")
    (isName : IsName last) (rooted : parent.isAbsolute = true)
    (looked : tree.lookup here parent = .ok (location, .directory)) (here' : Location) :
    tree.find false here' path ≠ .error .notFound := by
  obtain ⟨-, walked⟩ := lookup_ok_iff.mp looked
  rw [if_pos rooted] at walked
  have came : ∃ left, ∀ follow more, GoesOn more →
      walk tree follow maxLinks [] .directory (steps parent ++ more) =
        walk tree follow left location .directory more := by
    rcases walk_append tree maxLinks [] .directory (steps parent) with
      ⟨reached, found, left, -, came, goes⟩ | ⟨missed, fails⟩
    · refine ⟨left, fun follow more on => ?_⟩
      rw [goes follow more (Or.inl on)]
      rcases pieces_eq_steps parent with own | own
      · rw [own, came] at walked
        obtain ⟨rfl, rfl⟩ := Spot.taken.inj (Except.ok.inj walked)
        rfl
      · rw [own, goes true [""] (Or.inr rfl)] at walked
        by_cases inside : found = .directory
        · subst inside
          rw [walk_idle (by decide), walk] at walked
          obtain ⟨rfl, -⟩ := Spot.taken.inj (Except.ok.inj walked)
          rfl
        · rw [walk_outside inside] at walked
          cases walked
    · obtain ⟨reached, found, there⟩ : ∃ reached found,
          walk tree true maxLinks [] .directory (steps parent) = .ok (.taken reached found) := by
        rcases pieces_eq_steps parent with own | own
        · exact ⟨_, _, own ▸ walked⟩
        · exact walk_prefix (own ▸ walked)
      exact absurd there (missed _ _)
  obtain ⟨left, goes⟩ := came
  obtain ⟨piece, inside, visible⟩ := goes_on isName.busy outer
  rw [find_accepted accepted, if_pos absolute, whole,
    goes false _ ⟨piece, List.mem_append_right _ inside, visible⟩, walk_past_idles idle]
  exact walk_last isName blank

private theorem find_in_made {parent : Path} {partly : FileTree}
    (found : path.parent? = some parent) (accepted : Accepted path)
    (own : steps path = "" :: (pieces ++ [last])) (isName : IsName last)
    (done : tree.makeDirectories here parent = (.ok (), partly)) :
    partly.find false here path ≠ .error .notFound := by
  obtain ⟨absolute, -⟩ := pieces_of_steps own
  obtain ⟨before, inner, outer, -, -, idle, blank, whole⟩ := steps_of_parent found own isName.busy
  have taken := accepted_of_parent found absolute accepted
  obtain ⟨location, looked⟩ := directory_found taken.nonempty done
  exact find_beside accepted absolute whole idle blank isName
    ((pieces_of_parent found).2.trans absolute) looked here

/-- What making the last directory of an open way comes to. -/
private theorem make_open (accepted : Accepted path) (own : steps path = "" :: (pieces ++ [last]))
    (busy : Path.isIdle last = false) (leads : Leads tree pieces middle)
    (clear : Clear tree middle [last] ending) (here : Location) :
    (tree.makeDirectory here path = .error .exists ∧ tree.isDirectory here path = true) ∨
      (∃ made, tree.makeDirectory here path = .ok made) ∨
      tree.makeDirectory here path = .error .notFound ∧
        tree.find false here path = .error .notFound := by
  obtain ⟨came, kind, found⟩ := find_open accepted own busy leads clear
  unfold makeDirectory isDirectory lookup
  rw [found, found]
  cases kind with
  | there => exact Or.inl ⟨rfl, rfl⟩
  | free slash => exact Or.inr (Or.inl ⟨_, rfl⟩)
  | missing => exact Or.inr (Or.inr ⟨rfl, rfl⟩)

/-- The directory above the last one of an open way is there, or is one of the names on the way. -/
private theorem makes_parent {parent : Path} (found : path.parent? = some parent)
    (accepted : Accepted path) (own : steps path = "" :: (pieces ++ [last]))
    (busy : Path.isIdle last = false) (leads : Leads tree pieces middle)
    (ih : ∀ {middle ending : Location} {last : String} {pieces : List String}, Accepted parent →
      steps parent = "" :: (pieces ++ [last]) → Path.isIdle last = false →
      Leads tree pieces middle → Clear tree middle [last] ending →
        ∃ made, tree.makeDirectories here parent = (.ok (), made)) :
    ∃ made, tree.makeDirectories here parent = (.ok (), made) := by
  have absolute := (pieces_of_steps own).1
  have taken := accepted_of_parent found absolute accepted
  obtain ⟨before, inner, outer, start, rfl, -⟩ := steps_of_parent found own busy
  rcases leads_cut leads with ⟨reached, walked⟩ | ⟨before, last, middle, reached, rfl, led, onward⟩
  · have looked : tree.lookup here parent = .ok (reached, .directory) := by
      refine lookup_ok_iff.mpr ⟨taken, ?_⟩
      rw [if_pos ((pieces_of_parent found).2.trans absolute)]
      rcases pieces_eq_steps parent with shown | shown
      · rw [shown, start, walk_idle (by decide), walked]
      · rcases walk_append tree maxLinks [] .directory before with
          ⟨reached', found', left, -, came, goes⟩ | ⟨missed, -⟩
        · obtain ⟨rfl, rfl⟩ := Spot.taken.inj (Except.ok.inj (came.symm.trans walked))
          rw [shown, start, List.cons_append, walk_idle (by decide), goes true _ (Or.inr rfl),
            walk_idle (by decide), walk]
        · exact absurd walked (missed _ _)
    exact ⟨tree, makes_there looked⟩
  · exact ih taken start (parent_named found absolute start) led onward

/-- The directories of an open way can be made. -/
theorem makes_way (accepted : Accepted path) (own : steps path = "" :: (pieces ++ [last]))
    (busy : Path.isIdle last = false) (leads : Leads tree pieces middle)
    (clear : Clear tree middle [last] ending) :
    ∃ made, tree.makeDirectories here path = (.ok (), made) := by
  fun_induction makeDirectories tree here path generalizing pieces last middle ending
  case case1 => exact ⟨_, rfl⟩
  case case2 => exact ⟨_, rfl⟩
  case case3 none =>
    obtain ⟨-, outer, -, shape⟩ := pieces_of_steps own
    have idle := idle_of_no_parent none last (by simp [shape])
    rw [busy] at idle
    cases idle
  case case4 parent found error partly failed ih =>
    obtain ⟨made, done⟩ := makes_parent found accepted own busy leads ih
    cases done.symm.trans failed
  case case5 => exact ⟨_, rfl⟩
  case case6 settled visible _ parent found partly done error failed ih =>
    -- The parent is there now, so nothing but the last directory can be missing, and it is not.
    have grown := make_directories_grown tree here parent
    rw [done] at grown
    have still : ∀ location, (∀ node, tree.get? location = some node → node = .directory) →
        ∀ node, partly.get? location = some node → node = .directory :=
      fun location => open_still ((grown location).imp_right And.right)
    have clear' := clear_later clear fun location _ => still location
    have leads' := leads_later leads (keeps_ways_of_grown grown) fun location _ => still location
    rcases make_open accepted own busy leads' clear' here with
      ⟨-, there⟩ | ⟨made, did⟩ | ⟨-, missing⟩
    · exact ⟨partly, by simp only [settled, there, dite_true]⟩
    · cases did.symm.trans failed
    · exact absurd missing (find_in_made found accepted own (clear_last busy clear).1 done)
  case case7 settled visible error other failed =>
    rcases make_open accepted own busy leads clear here with ⟨-, there⟩ | ⟨made, did⟩ | ⟨missing, -⟩
    · exact ⟨tree, by simp only [settled, there, dite_true]⟩
    · cases did.symm.trans failed
    · exact absurd (Except.error.inj (failed.symm.trans missing)) other

end Making

end ContractBuild.OpenWays
