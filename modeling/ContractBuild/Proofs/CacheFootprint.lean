import ContractBuild.Proofs.ShownNames
import ContractBuild.Proofs.SourcesSpared

/-! What the operations of a cache touch. A put and the writing of sources make the root and the
directory of their own digest, change nothing else outside of this directory, and nothing in the
place of the cache is there that was not made for a digest. -/
namespace ContractBuild.CacheFootprint
open CacheChange CachePlace FileTree PathPieces PathRoute PathWalk ShownNames SourcesSpared
open WrittenFiles

variable {cache : Cache} {place : Location} {w middle after : Workspace} {digest : Digest}

section Roots

/-- The root path of a cache ends in the name of its place, slashes after it apart, and the way to the
place does not lead through its inside. (A root `c/.` cannot be removed. The way `c/x/../../c` leads
through the inside: `x` has to be made in `c` for it.) -/
structure Founded (cache : Cache) (place : Location) (w : Workspace) : Prop where
  named : ∃ front base name outer, steps cache.root = front ++ name :: outer ∧ Plain name ∧
    (∀ piece ∈ outer, piece = "") ∧
    route w.files true maxLinks (origin w cache.root) front = some base ∧ place = base ++ [name]
  direct : ∀ front location, front <+: steps cache.root →
    route w.files true maxLinks (origin w cache.root) front = some location →
    place <+: location → location = place

/-- The root of a cache is missing, and nothing is in its place. So it is with every root that is
written as names below a directory and of which the first name is free (`missing_of_directory`). -/
structure Missing (cache : Cache) (place : Location) (w : Workspace) : Prop
    extends Founded cache place w where
  absent : ∀ location, place <+: location → w.files.get? location = none

theorem founded_of_same_links (after : Workspace) (founded : Founded cache place w)
    (links : SameLinks w.files after.files) (here : after.here = w.here) :
    Founded cache place after where
  named := by
    simp only [route_of_same_links links, origin, here]
    exact founded.named
  direct := by
    simp only [route_of_same_links links, origin, here]
    exact founded.direct

theorem visible_of_founded (founded : Founded cache place w) : cache.root.text ≠ "" := by
  intro blank
  obtain ⟨front, base, name, outer, shape, -⟩ := founded.named
  have none : steps cache.root = [] := by simp [steps, Path.pieces, blank, Text.split]
  simp [none] at shape

/-- The pieces of the root path are its steps, but for what a slash at the end leaves. -/
private theorem pieces_named {front outer : List String} {name : String}
    (shape : steps cache.root = front ++ name :: outer) (blank : ∀ piece ∈ outer, piece = "") :
    ∃ outer, cache.root.pieces = front ++ name :: outer ∧ ∀ piece ∈ outer, piece = "" := by
  rcases pieces_eq_steps cache.root with own | own
  · exact ⟨outer, own.trans shape, blank⟩
  · refine ⟨outer ++ [""], by rw [own, shape, List.append_assoc, List.cons_append], ?_⟩
    intro piece inside
    rcases List.mem_append.mp inside with inside | last
    · exact blank piece inside
    · exact List.mem_singleton.mp last

/-- The root path does not end in a step to a directory itself or its parent. -/
theorem founded_ends_in_name (founded : Founded cache place w) :
    endsInStep cache.root = false := by
  obtain ⟨front, base, name, outer, shape, plain, blank, -⟩ := founded.named
  obtain ⟨outer', pieces, blank'⟩ := pieces_named shape blank
  exact ends_in_name pieces plain.busy plain.inner blank'

section Names
variable {base : Path} {above : Location} {name : String} {names : List String}

/-- From a solid directory a walk comes to something that is there. -/
private theorem there_of_walk {path : Path} {front : List String} {reached : Location} {found : Node}
    (solid : Solid w.files w.here)
    (walked : walk w.files true maxLinks (origin w path) .directory front =
      .ok (.taken reached found)) : w.files.get? reached = some found := by
  have start : Solid w.files (origin w path) := by
    unfold origin
    split
    · exact solid_top
    · exact solid
  by_cases inner : found = .directory
  · subst inner
    exact (walk_standing (standing_of_solid start) walked).solid rfl reached List.prefix_rfl
  · exact taken_there inner walked

/-- Names lead on from a directory if there are no links below the first of them. -/
private theorem names_lead (plain : ∀ other ∈ name :: names, Plain other)
    (reached : walk w.files true maxLinks (origin w base) .directory (steps base) =
      .ok (.taken above .directory))
    (free : ∀ location, above ++ [name] <+: location → w.files.get? location = none)
    {more : List String} (inside : more <+: name :: names) :
    route w.files true maxLinks (origin w base) (steps base ++ more) = some (above ++ more) := by
  have unlinked : ∀ location target, above ++ [name] <+: location →
      w.files.get? location ≠ some (.link target) := by
    intro location target inner link
    cases (free location inner).symm.trans link
  have first := plain name (by simp)
  rcases route_append w.files maxLinks (origin w base) (steps base) with
    ⟨came, left, -, led, onward⟩ | ⟨missed, -⟩
  · obtain rfl := Option.some.inj (led.symm.trans (route_of_walk reached))
    rw [onward true _ (Or.inr rfl)]
    cases more with
    | nil => rw [route, List.append_nil]
    | cons other more =>
      obtain ⟨rfl, shorter⟩ := List.cons_prefix_cons.mp inside
      rw [route_on first.busy first.inner fun target => unlinked _ target List.prefix_rfl,
        route_names (fun other among => plain other (List.mem_cons_of_mem _ (shorter.subset among)))
          unlinked, List.append_assoc]
      rfl
  · cases missed.symm.trans (route_of_walk reached)

/-- A root is missing that is written as names below a path that leads to a directory, if the first
of the names is free there. -/
theorem missing_of_directory (root : cache.root = pathBelow base (name :: names))
    (plain : ∀ other ∈ name :: names, Plain other) (solid : Solid w.files w.here)
    (reached : walk w.files true maxLinks (origin w base) .directory (steps base) =
      .ok (.taken above .directory))
    (free : ∀ location, above ++ [name] <+: location → w.files.get? location = none) :
    Missing cache (above ++ name :: names) w := by
  have start : origin w cache.root = origin w base := by
    rw [origin, origin, root, below_absolute plain]
  have below : steps cache.root = steps base ++ name :: names := root ▸ steps_below plain base
  have within : above ++ [name] <+: above ++ name :: names := ⟨names, by simp⟩
  obtain ⟨front, last, shape⟩ : ∃ front last, name :: names = front ++ [last] :=
    (List.eq_nil_or_concat' (name :: names)).resolve_left (by simp)
  refine ⟨⟨⟨steps base ++ front, above ++ front, last, [], ?_, plain last ?_, by simp, ?_, ?_⟩,
    fun front location inside led inner => ?_⟩,
    fun location inner => free location (within.trans inner)⟩
  · rw [below, shape, List.append_assoc]
  · simp [shape]
  · rw [start]
    exact names_lead plain reached free ⟨[last], shape.symm⟩
  · rw [shape, List.append_assoc]
  · rw [start] at led
    rw [below] at inside
    rcases List.prefix_or_prefix_of_prefix inside (List.prefix_append ..) with ⟨rest, whole⟩ |
      ⟨rest, rfl⟩
    · -- What the way to the directory passes is there, and nothing in the place is.
      rw [← whole] at reached
      obtain ⟨came, found, walked⟩ := walk_prefix reached
      obtain rfl := Option.some.inj (led.symm.trans (route_of_walk walked))
      cases (free _ (within.trans inner)).symm.trans (there_of_walk solid walked)
    · have shorter := (List.prefix_append_right_inj _).mp inside
      obtain rfl := Option.some.inj (led.symm.trans (names_lead plain reached free shorter))
      have longer := (List.prefix_append_right_inj _).mp inner
      rw [shorter.eq_of_length_le longer.length_le]

end Names

theorem placed_of_missing (missing : Missing cache place w) : Placed cache place w := by
  obtain ⟨front, base, name, outer, shape, plain, blank, leads, rfl⟩ := missing.named
  have solid : ∀ target, w.files.get? (base ++ [name]) ≠ some (.link target) := by
    intro target link
    cases (missing.absent _ List.prefix_rfl).symm.trans link
  have ends : ∀ follow rest, (∀ piece ∈ rest, piece = "") →
      route w.files follow maxLinks (origin w cache.root) (front ++ name :: rest) =
        some (base ++ [name]) := by
    intro follow rest blank
    have idles : ∀ piece ∈ rest, Path.isIdle piece = true := by
      intro piece inside
      rw [blank piece inside]
      rfl
    rcases route_append w.files maxLinks (origin w cache.root) front with
      ⟨reached, left, -, led, onward⟩ | ⟨missed, -⟩
    · obtain rfl := Option.some.inj (led.symm.trans leads)
      rw [onward follow _ (Or.inl ⟨name, by simp, plain_visible plain⟩),
        route_on plain.busy plain.inner solid, route_idles idles]
    · cases missed.symm.trans leads
  obtain ⟨outer', pieces, blank'⟩ := pieces_named shape blank
  refine ⟨?_, ?_, fun location target within link => ?_⟩
  · rw [shape]
    exact ends true outer blank
  · rw [pieces]
    exact ends false outer' blank'
  · cases (missing.absent location within).symm.trans link

/-- While its place holds nothing, the root path leads to nothing that is there. -/
theorem nothing_found (founded : Founded cache place w) (absent : w.files.get? place = none)
    (found : Location × Node) : w.files.lookup w.here cache.root ≠ .ok found := by
  obtain ⟨front, base, name, outer, shape, plain, blank, leads, rfl⟩ := founded.named
  obtain ⟨outer', pieces, -⟩ := pieces_named shape blank
  intro looked
  obtain ⟨-, walked⟩ := lookup_ok_iff.mp looked
  rw [pieces] at walked
  have walked : walk w.files true maxLinks (origin w cache.root) .directory (front ++ name :: outer') =
      .ok (.taken found.1 found.2) := walked
  rcases walk_append w.files maxLinks (origin w cache.root) .directory front with
    ⟨reached, node, left, -, came, onward⟩ | ⟨-, fails⟩
  · obtain rfl := Option.some.inj ((route_of_walk came).symm.trans leads)
    rw [onward true _ (Or.inr rfl)] at walked
    obtain ⟨rfl, isName⟩ := name_of_walk plain walked
    rw [walk_absent isName absent] at walked
    split at walked <;> cases walked
  · obtain ⟨error, failed⟩ := fails true (name :: outer') ⟨name, by simp, plain_visible plain⟩
    rw [failed] at walked
    cases walked

end Roots

section Touched
variable {names : List String}

/-- A change touches, of what is in the place of a cache, nothing but what is on the way to names or
below them. It keeps the links, and the directories stay where they are. -/
structure Touches (place : Location) (names : List String) (w after : Workspace) : Prop where
  here : after.here = w.here
  links : SameLinks w.files after.files
  ways : KeepsWays w.files after.files
  tidy : (w.files.children place).Nodup → (after.files.children place).Nodup
  elsewhere : ∀ location, place <+: location → ¬ location <+: place ++ names →
    ¬ place ++ names <+: location → after.files.get? location = w.files.get? location

theorem touches_refl (place : Location) (names : List String) (w : Workspace) :
    Touches place names w w where
  here := rfl
  links _ _ := Iff.rfl
  ways := keeps_ways_refl w.files
  tidy nodup := nodup
  elsewhere _ _ _ _ := rfl

theorem touches_trans (first : Touches place names w middle)
    (second : Touches place names middle after) : Touches place names w after where
  here := second.here.trans first.here
  links := same_links_trans first.links second.links
  ways := keeps_ways_trans first.ways second.ways
  tidy nodup := second.tidy (first.tidy nodup)
  elsewhere location within before beyond :=
    (second.elsewhere location within before beyond).trans
      (first.elsewhere location within before beyond)

/-- What touches only what is below names touches only what is below the first of them. -/
theorem touches_outer {more : List String} (touches : Touches place (names ++ more) w after) :
    Touches place names w after where
  here := touches.here
  links := touches.links
  ways := touches.ways
  tidy := touches.tidy
  elsewhere location within before beyond := by
    have inner : place ++ names <+: place ++ (names ++ more) := by
      rw [← List.append_assoc]
      exact List.prefix_append ..
    refine touches.elsewhere location within (fun inside => ?_) fun inside =>
      beyond (inner.trans inside)
    rcases List.prefix_or_prefix_of_prefix inside inner with shorter | longer
    · exact before shorter
    · exact beyond longer

private theorem make_directories_tidy (tree : FileTree) (here directory : Location) (path : Path)
    (nodup : (tree.children directory).Nodup) :
    ((tree.makeDirectories here path).2.children directory).Nodup := by
  have made_tidy : ∀ {tree made : FileTree} {path : Path},
      tree.makeDirectory here path = .ok made → (tree.children directory).Nodup →
        (made.children directory).Nodup := by
    intro tree made path done nodup
    unfold makeDirectory at done
    split at done
    · cases done
    · obtain rfl := Except.ok.inj done
      exact children_nodup_set nodup _ _
    · cases done
  fun_induction makeDirectories tree here path
  case case1 => exact nodup
  case case2 made => exact made_tidy made nodup
  case case3 => exact nodup
  case case4 failed ih =>
    rw [failed] at ih
    exact ih
  case case5 partly done made done' ih =>
    rw [done] at ih
    exact made_tidy done' ih
  case case6 partly done error failed ih =>
    rw [done] at ih
    exact ih
  case case7 => exact nodup

/-- Making a directory below the root of a cache touches what is on the way to it. -/
theorem makes_below (founded : Founded cache place w) (placed : Placed cache place w)
    (nonempty : names ≠ []) (plain : ∀ name ∈ names, Plain name) :
    Touches place names w { w with
      files := (w.files.makeDirectories w.here (pathBelow cache.root names)).2 } := by
  have grown := make_directories_grown w.files w.here (pathBelow cache.root names)
  refine ⟨rfl, same_links_of_grown grown, keeps_ways_of_grown grown,
    make_directories_tidy _ _ _ _, fun location within before beyond => ?_⟩
  by_contra differs
  obtain ⟨front, inside, leads⟩ := made_on_the_way w.files w.here _ differs
  rw [below_pieces nonempty plain] at inside
  rw [below_absolute plain] at leads
  have short : steps cache.root <+: steps cache.root ++ names := List.prefix_append ..
  -- What is made is on the way to the root, or below the root on the way to the names.
  rcases List.prefix_or_prefix_of_prefix inside short with outer | ⟨rest, rfl⟩
  · obtain rfl := founded.direct front location outer leads within
    exact before (List.prefix_append ..)
  · have inner : rest <+: names := (List.prefix_append_right_inj _).mp inside
    have plain' : ∀ name ∈ rest, Plain name := fun name among => plain name (inner.subset among)
    obtain rfl := Option.some.inj (leads.symm.trans (route_inside placed plain' (Or.inr rfl)))
    exact before ((List.prefix_append_right_inj _).mpr inner)

/-- Writing a whole file below the root of a cache touches what is in its directory. -/
theorem writes_below {ε : Type} {fail : Path → FileError → ε} {content : Bytes} {written : Path}
    {name : String} (placed : Placed cache place w) (plain : ∀ other ∈ names, Plain other)
    (plain' : Plain name)
    (done : Disk.writeWhole fail (pathBelow cache.root names) name content w = .ok written after) :
    Touches place names w after := by
  have plainFile : ∀ other ∈ names ++ [name], Plain other := by
    intro other inside
    rcases List.mem_append.mp inside with inside | inside
    · exact plain other inside
    · exact List.mem_singleton.mp inside ▸ plain'
  have unlinked := unlinked_below placed (by simp) plainFile
  rw [← below_concat] at unlinked
  obtain ⟨here, ways, -⟩ := write_whole_found unlinked done
  obtain ⟨-, links, temporary, executable, -, changed⟩ := write_whole_effect placed plain plain' done
  refine ⟨here, links, ways, fun nodup => ?_, fun location within before beyond => ?_⟩
  · rw [changed]
    exact children_nodup_set (children_nodup_erase (children_nodup_set nodup _ _) _) _ _
  · have apart : ∀ last, location ≠ place ++ (names ++ [last]) := by
      rintro last rfl
      rw [← List.append_assoc] at beyond
      exact beyond (List.prefix_append ..)
    rw [changed, get_of_replaced (by simp) (by simp), if_neg (apart name), if_neg (apart temporary)]

end Touched

section Digests

/-- The root of a cache and the directory of a digest in it are there. -/
structure Present (cache : Cache) (place : Location) (digest : Digest) (w : Workspace) : Prop where
  root : w.files.lookup w.here cache.root = .ok (place, .directory)
  own : w.files.get? (place ++ [digest.toHex]) = some .directory

theorem present_later {names : List String} (touches : Touches place names w after)
    (present : Present cache place digest w) : Present cache place digest after where
  root := by
    rw [touches.here]
    exact directory_later touches.ways present.root
  own := touches.ways.directories _ present.own

/-- Making a directory that belongs to a digest. -/
private theorem makes_present {ε : Type} {fail : FileError → ε} {rest : List String}
    (founded : Founded cache place w) (placed : Placed cache place w)
    (plain : ∀ name ∈ digest.toHex :: rest, Plain name)
    (done : Disk.makeDirectories fail (pathBelow cache.root (digest.toHex :: rest)) w =
      .ok () after) :
    Touches place (digest.toHex :: rest) w after ∧ Present cache place digest after := by
  obtain ⟨files, made, rfl⟩ := make_directories_ok done
  have touches := makes_below founded placed (by simp) plain
  rw [made] at touches
  have placed' := placed_of_same_links { w with files } placed touches.links rfl
  have nonempty : (pathBelow cache.root (digest.toHex :: rest)).text ≠ "" := by
    intro blank
    have pieces := below_pieces (by simp) plain cache.root
    have last : (pathBelow cache.root (digest.toHex :: rest)).pieces.getLast? = some "" :=
      (last_piece_empty_iff _).mpr (Or.inl (by simp [blank]))
    rw [pieces, List.getLast?_append_of_ne_nil _ (by simp)] at last
    exact plain_visible (plain "" (List.mem_of_getLast? last)) rfl
  obtain ⟨location, found⟩ := directory_found nonempty made
  obtain ⟨root, own⟩ := lookup_on_the_way placed' (visible_of_founded founded) plain found
  exact ⟨touches, root, own⟩

/-- A put touches the directory of its digest. -/
theorem put_touches {response : Response} {version : String} (founded : Founded cache place w)
    (placed : Placed cache place w)
    (done : cache.put digest response version w = .ok () after) :
    Touches place [digest.toHex] w after ∧ Present cache place digest after := by
  obtain ⟨written, artifact⟩ := artifact_of_put done
  obtain ⟨⟨⟩, made, making, whole⟩ := ok_of_bind artifact
  obtain ⟨touches, present⟩ := makes_present founded placed (directory_plain digest) making
  have placed' := placed_of_same_links made placed touches.links touches.here
  have touches' := writes_below placed' (directory_plain digest) result_plain whole
  exact ⟨touches_trans touches touches', present_later touches' present⟩

private theorem writes_sources {names : List String} (placed : Placed cache place w)
    (plain : ∀ other ∈ names, Plain other) (files : List (String × Source.IncludedFile))
    (named : ∀ entry ∈ files, Plain entry.1)
    (done : InstalledCompiler.writeSources (pathBelow cache.root names) files w = .ok () after) :
    Touches place names w after := by
  induction files generalizing w with
  | nil =>
    obtain ⟨-, rfl⟩ := EStateM.Result.ok.inj done
    exact touches_refl place names w
  | cons entry files ih =>
    obtain ⟨key, file⟩ := entry
    have later : ∀ other ∈ files, Plain other.1 :=
      fun other inside => named other (List.mem_cons_of_mem _ inside)
    unfold InstalledCompiler.writeSources at done
    obtain ⟨now, between, got, done⟩ := ok_of_bind done
    obtain ⟨rfl, rfl⟩ := EStateM.Result.ok.inj got
    split at done
    · exact ih placed later done
    · obtain ⟨written, next, whole, done⟩ := ok_of_bind done
      have touches := writes_below placed plain (named (key, file) (by simp)) whole
      have placed' := placed_of_same_links next placed touches.links touches.here
      exact touches_trans touches (ih placed' later done)

/-- Writing sources touches the directory for the sources of the digest. -/
theorem materialize_touches {request : Request} (founded : Founded cache place w)
    (placed : Placed cache place w) (plain : PlainFiles request)
    (done : InstalledCompiler.materialize request (cache.sources digest) w = .ok () after) :
    Touches place [digest.toHex, Cache.sourcesName] w after ∧
      Present cache place digest after := by
  have plainSources := artifact_plain digest sources_plain
  obtain ⟨⟨⟩, made, making, done⟩ := ok_of_bind done
  obtain ⟨touches, present⟩ := makes_present founded placed plainSources making
  have placed' := placed_of_same_links made placed touches.links touches.here
  have touches' := writes_sources placed' plainSources request.includes.entries plain done
  exact ⟨touches_trans touches touches', present_later touches' present⟩

end Digests

end ContractBuild.CacheFootprint
