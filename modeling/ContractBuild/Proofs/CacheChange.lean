import ContractBuild.Proofs.CachePlace
import ContractBuild.Proofs.StoredForms
import ContractBuild.Proofs.WrittenFiles

/-! What the operations of a cache change. A put writes the result of its own digest and no other
result, clearing leaves nothing in the place of the cache, and what is read as a result is what was
put there. -/
namespace ContractBuild.CacheChange
open ByteForms CachePlace FileTree PathPieces PathRoute PathWalk StoredForms WrittenFiles

variable {cache : Cache} {place : Location} {w after : Workspace} {digest : Digest}

/-- A place stays where it is if the links and the working directory stay. -/
theorem placed_of_same_links (after : Workspace) (placed : Placed cache place w)
    (links : SameLinks w.files after.files) (here : after.here = w.here) :
    Placed cache place after where
  leads := by
    rw [route_of_same_links links, origin, here]
    exact placed.leads
  unlinked := by
    rw [route_of_same_links links, origin, here]
    exact placed.unlinked
  linkless location target within there :=
    placed.linkless location target within ((links location target).mp there)

theorem route_names {tree : FileTree} {follow : Bool} {links : Nat} {names : List String}
    (plain : ∀ name ∈ names, Plain name)
    (linkless : ∀ location target, place <+: location → tree.get? location ≠ some (.link target)) :
    route tree follow links place names = some (place ++ names) := by
  induction names generalizing place with
  | nil => rw [route, List.append_nil]
  | cons name names ih =>
    have namePlain := plain name (by simp)
    have own := fun target => linkless (place ++ [name]) target (List.prefix_append ..)
    rw [route_on namePlain.busy namePlain.inner own,
      ih (fun other inside => plain other (List.mem_cons_of_mem _ inside))
        fun location target inside => linkless location target ((List.prefix_append ..).trans inside),
      List.append_assoc]
    rfl

/-- The steps of the root of a cache and names after them lead to the location of the names. -/
theorem route_inside (placed : Placed cache place w) {names : List String}
    (plain : ∀ name ∈ names, Plain name) {follow : Bool} (on : GoesOn names ∨ follow = true) :
    route w.files follow maxLinks (origin w cache.root) (steps cache.root ++ names) =
      some (place ++ names) := by
  rcases route_append w.files maxLinks (origin w cache.root) (steps cache.root) with
    ⟨reached, left, -, led, onward⟩ | ⟨missed, -⟩
  · obtain rfl := Option.some.inj (led.symm.trans placed.leads)
    exact (onward follow names on).trans (route_names plain placed.linkless)
  · cases missed.symm.trans placed.leads

/-- A path below the root of a cache leads to the location of its names. -/
theorem route_below (placed : Placed cache place w) {names : List String} (nonempty : names ≠ [])
    (plain : ∀ name ∈ names, Plain name) (follow : Bool) :
    route w.files follow maxLinks (origin w (pathBelow cache.root names))
      (pathBelow cache.root names).pieces = some (place ++ names) := by
  rw [origin, below_pieces nonempty plain, below_absolute plain]
  obtain ⟨name, inside⟩ := List.exists_mem_of_ne_nil names nonempty
  exact route_inside placed plain (Or.inl ⟨name, inside, plain_visible (plain name inside)⟩)

/-- No link stands where a path below the root of a cache ends. -/
theorem unlinked_below (placed : Placed cache place w) {names : List String} (nonempty : names ≠ [])
    (plain : ∀ name ∈ names, Plain name) :
    Unlinked w.files w.here (pathBelow cache.root names) := by
  intro location target leads
  obtain rfl := Option.some.inj (leads.symm.trans (route_below placed nonempty plain false))
  exact placed.linkless _ target (List.prefix_append ..)

/-- No link stands in the place of a file of a cache. -/
theorem unlinked_of_placed (placed : Placed cache place w) {name : String} (plain : Plain name)
    (digest : Digest) : Unlinked w.files w.here (cache.file digest name) := by
  change Unlinked w.files w.here (pathBelow cache.root [digest.toHex, name])
  exact unlinked_below placed (by simp) (artifact_plain digest plain)

section Artifacts
variable {name old new : String}

theorem artifact_inner (place : Location) (digest : Digest) (name : String) :
    artifactPlace place digest name ≠ [] := by simp [artifactPlace]

theorem artifact_within (place : Location) (digest : Digest) (name : String) :
    place <+: artifactPlace place digest name := ⟨_, rfl⟩

theorem artifact_names_apart (place : Location) (digest : Digest) (different : old ≠ new) :
    artifactPlace place digest old ≠ artifactPlace place digest new := by
  simpa [artifactPlace] using different

theorem artifact_digests_apart (place : Location) {first second : Digest} (different : first ≠ second)
    (old new : String) : artifactPlace place first old ≠ artifactPlace place second new := by
  intro same
  simp only [artifactPlace, List.append_cancel_left_eq, List.cons.injEq] at same
  exact different (to_hex_injective same.1)

/-- Writing a file below the root of a cache sets the location that its names lead to. -/
theorem write_below (placed : Placed cache place w) {names : List String} (nonempty : names ≠ [])
    (plain : ∀ name ∈ names, Plain name) {content : Bytes} {files : FileTree}
    (done : w.files.write w.here (pathBelow cache.root names) content = .ok files) :
    ∃ executable, files = w.files.set (place ++ names) (.file content executable) := by
  unfold FileTree.write at done
  split at done
  · rename_i location _ executable found
    cases find_below placed nonempty plain found
    exact ⟨executable, (Except.ok.inj done).symm⟩
  · cases done
  · rename_i location found
    cases find_below placed nonempty plain found
    exact ⟨false, (Except.ok.inj done).symm⟩
  · cases done
  · cases done

/-- Moving a file below the root of a cache takes it from the location that its old names lead to to
the one that the new names lead to. -/
theorem move_below (placed : Placed cache place w) {old new : List String} (different : old ≠ new)
    (nonempty : old ≠ []) (nonempty' : new ≠ []) (plain : ∀ name ∈ old, Plain name)
    (plain' : ∀ name ∈ new, Plain name) {files : FileTree}
    (done : w.files.moveFile w.here (pathBelow cache.root old) (pathBelow cache.root new) =
      .ok files) :
    ∃ node, w.files.get? (place ++ old) = some node ∧
      files = (w.files.erase (place ++ old)).set (place ++ new) node := by
  have apart : place ++ new ≠ place ++ old := by simpa using different.symm
  obtain ⟨source, node, found, moved, -⟩ := move_ok done
  cases find_below placed nonempty plain found with
  | taken there =>
    refine ⟨node, there, ?_⟩
    rcases moved with ⟨_, slash, found', rfl⟩ | ⟨_, held, found', -, rfl⟩
    · cases find_below placed nonempty' plain' found'
      rfl
    · cases find_below placed nonempty' plain' found'
      exact if_neg apart

section Effects
variable {ε : Type} {front : List String} {content : Bytes} {written : Path}

/-- Writing a file below the root of a cache under a temporary name and moving it into place makes no
link, and changes nothing but two locations: the temporary one holds nothing then, and the other one
the content. -/
theorem write_whole_effect {fail : Path → FileError → ε} (placed : Placed cache place w)
    (plain : ∀ other ∈ front, Plain other) (plain' : Plain name)
    (done : Disk.writeWhole fail (pathBelow cache.root front) name content w = .ok written after) :
    after.here = w.here ∧ SameLinks w.files after.files ∧ ∃ temporary executable,
      temporary ≠ name ∧
      after.files = ((w.files.set (place ++ (front ++ [temporary])) (.file content executable)).erase
        (place ++ (front ++ [temporary]))).set (place ++ (front ++ [name]))
          (.file content executable) := by
  obtain ⟨files, files', wrote, moved, rfl⟩ := write_whole_ok done
  obtain ⟨temporaryPlain, different⟩ := temporary_plain plain' w.process w.issued
  generalize s!".{name}.{w.process}.{w.issued}.tmp" = temporary at *
  rw [below_concat] at wrote
  rw [below_concat, below_concat] at moved
  have plainBelow : ∀ {last}, Plain last → ∀ other ∈ front ++ [last], Plain other := by
    intro last lastPlain other inside
    rcases List.mem_append.mp inside with inside | inside
    · exact plain other inside
    · exact List.mem_singleton.mp inside ▸ lastPlain
  have inner : ∀ last, place ++ (front ++ [last]) ≠ [] := by simp
  have within : ∀ last, place <+: place ++ (front ++ [last]) := fun _ => List.prefix_append ..
  obtain ⟨executable, rfl⟩ := write_below
    (placed_of_same_links { w with issued := w.issued + 1 } placed (fun _ _ => Iff.rfl) rfl)
    (by simp) (plainBelow temporaryPlain) wrote
  have links := same_links_set (inner temporary)
    (fun target => placed.linkless _ target (within temporary))
    (show ∀ target, Node.file content executable ≠ .link target by simp)
  have filled := placed_of_same_links { w with
    files := w.files.set (place ++ (front ++ [temporary])) (.file content executable)
    issued := w.issued + 1 } placed links rfl
  obtain ⟨node, held, rfl⟩ := move_below filled (by simpa using different) (by simp) (by simp)
    (plainBelow temporaryPlain) (plainBelow plain') moved
  rw [get?_set _ _ _ _ (inner temporary), if_pos rfl] at held
  obtain rfl := Option.some.inj held
  have erased := same_links_erase (inner temporary)
    fun target => filled.linkless _ target (within temporary)
  have left := placed_of_same_links { w with
    files := (w.files.set (place ++ (front ++ [temporary])) (.file content executable)).erase
      (place ++ (front ++ [temporary])) } filled erased rfl
  have moved := same_links_set (inner name) (fun target => left.linkless _ target (within name))
    (show ∀ target, Node.file content executable ≠ .link target by simp)
  exact ⟨rfl, same_links_trans (same_links_trans links erased) moved, temporary, executable, different,
    rfl⟩

/-- What is there once the file is in its place. -/
theorem get_of_replaced {tree : FileTree} {old new location : Location} (inner : old ≠ [])
    (inner' : new ≠ []) (node : Node) :
    (((tree.set old node).erase old).set new node).get? location =
      if location = new then some node else if location = old then none
      else tree.get? location := by
  rw [get?_set _ _ _ _ inner', get?_erase _ _ _ inner, get?_set _ _ _ _ inner]
  by_cases same : location = old <;> simp [same]

end Effects

end Artifacts

/-- The content of the file that holds the result of a digest. -/
def resultAt? (place : Location) (w : Workspace) (digest : Digest) : Option Bytes :=
  contentAt? w.files (artifactPlace place digest Cache.resultName)

/-- How a response is kept, under the version that it reports. -/
def keptForm (response : Response) (version : String) : Bytes :=
  Artifact.encode ⟨version, Codec.response response⟩

/-- A change spares a cache: the cache stays in its place, no link is made there, and no result comes
to be there. -/
structure Spares (cache : Cache) (place : Location) (w after : Workspace) : Prop where
  placed : Placed cache place after
  results : ∀ digest content, resultAt? place after digest = some content →
    resultAt? place w digest = some content

theorem spares_trans {middle : Workspace} (first : Spares cache place w middle)
    (second : Spares cache place middle after) : Spares cache place w after where
  placed := second.placed
  results digest content there := first.results digest content (second.results digest content there)

theorem spares_refl (placed : Placed cache place w) : Spares cache place w w :=
  ⟨placed, fun _ _ there => there⟩

section Spared
variable {location : Location} {node : Node}

/-- Setting a location in the place of a cache spares it if the location is no result's and gets no
link. -/
theorem spares_set (placed : Placed cache place w) (inner : location ≠ [])
    (within : place <+: location) (solid : ∀ target, node ≠ .link target)
    (apart : ∀ digest, location ≠ artifactPlace place digest Cache.resultName) :
    Spares cache place w { w with files := w.files.set location node } where
  placed := placed_of_same_links _ placed
    (same_links_set inner (fun target => placed.linkless _ target within) solid) rfl
  results digest content there := by
    obtain ⟨executable, there⟩ := file_of_content there
    dsimp only at there
    rw [get?_set _ _ _ _ inner, if_neg (apart digest).symm] at there
    exact content_of_file there

theorem spares_erase (placed : Placed cache place w) (inner : location ≠ [])
    (within : place <+: location) :
    Spares cache place w { w with files := w.files.erase location } where
  placed := placed_of_same_links _ placed
    (same_links_erase inner fun target => placed.linkless _ target within) rfl
  results digest content there := by
    obtain ⟨executable, there⟩ := file_of_content there
    dsimp only at there
    rw [get?_erase _ _ _ inner] at there
    split at there
    · cases there
    · exact content_of_file there

/-- Making directories spares a cache. -/
theorem spares_grown (placed : Placed cache place w) {files : FileTree}
    (grown : Grown w.files files) : Spares cache place w { w with files } where
  placed := placed_of_same_links _ placed (same_links_of_grown grown) rfl
  results digest content there := by
    obtain ⟨executable, there⟩ := file_of_content there
    dsimp only at there
    rcases grown (artifactPlace place digest Cache.resultName) with same | ⟨-, directory⟩
    · exact content_of_file (same.symm.trans there)
    · rw [directory] at there
      cases there

end Spared

/-- A put keeps the response as the result of its digest, and no result of another digest is there
afterwards that was not there before. -/
theorem put_effect {response : Response} {version : String} {answer : Unit}
    (placed : Placed cache place w)
    (done : cache.put digest response version w = .ok answer after) :
    Placed cache place after ∧
      resultAt? place after digest = some (keptForm response version) ∧
      ∀ other content, other ≠ digest → resultAt? place after other = some content →
        resultAt? place w other = some content := by
  obtain ⟨written, artifact⟩ := artifact_of_put done
  obtain ⟨⟨⟩, made, making, whole⟩ := ok_of_bind artifact
  obtain ⟨files, built, rfl⟩ := make_directories_ok making
  have grown := make_directories_grown w.files w.here (cache.directory digest)
  rw [built] at grown
  have spares := spares_grown placed grown
  obtain ⟨here, links, temporary, executable, different, changed⟩ :=
    write_whole_effect spares.placed (directory_plain digest) result_plain whole
  have held : ∀ location, after.files.get? location =
      if location = artifactPlace place digest Cache.resultName then
        some (.file (keptForm response version) executable)
      else if location = artifactPlace place digest temporary then none
      else files.get? location := by
    intro location
    rw [changed]
    exact get_of_replaced (artifact_inner place digest _) (artifact_inner place digest _) _
  have there : after.files.get? (artifactPlace place digest Cache.resultName) =
      some (.file (keptForm response version) executable) := by
    rw [held, if_pos rfl]
  refine ⟨placed_of_same_links _ spares.placed links here, content_of_file there, ?_⟩
  intro other content apart there
  obtain ⟨executable, there⟩ := file_of_content there
  rw [held, if_neg (artifact_digests_apart place apart _ _),
    if_neg (artifact_digests_apart place apart _ _)] at there
  exact spares.results other content (content_of_file there)

/-- What is found as the result of a digest is in its location, in the form of a response. -/
theorem entry_of_result (placed : Placed cache place w) {entry : CacheEntry}
    (found : cache.getEntry? w digest = some entry) :
    ∃ content artifact value rest, resultAt? place w digest = some content ∧
      Artifact.decode? content = some artifact ∧
      Codec.readResponse? artifact.payload = some (value, rest) ∧
      entry = ⟨value, artifact.compilerVersion⟩ := by
  obtain ⟨artifact, read, found⟩ := Option.bind_eq_some_iff.mp found
  obtain ⟨⟨value, rest⟩, decoded, found⟩ := Option.bind_eq_some_iff.mp found
  obtain rfl := Option.some.inj found
  unfold Cache.readArtifact? at read
  split at read
  · rename_i content whole
    exact ⟨content, artifact, value, rest, read_in_cache placed result_plain whole, read, decoded,
      rfl⟩
  · cases read

/-- Where the form of a response is kept, nothing but this response is found. -/
theorem entry_of_kept (placed : Placed cache place w) {entry : CacheEntry} {response : Response}
    {version : String} (kept : resultAt? place w digest = some (keptForm response version))
    (found : cache.getEntry? w digest = some entry) : entry = ⟨response, version⟩ := by
  obtain ⟨content, artifact, value, rest, there, decoded, read, rfl⟩ := entry_of_result placed found
  obtain rfl := Option.some.inj (kept.symm.trans there)
  obtain rfl := decode_encode decoded
  have whole : Codec.readResponse? (Codec.response response ++ []) = some (value, rest) := by
    rw [List.append_nil]
    exact read
  rw [(response_reads_back whole).1]

section Clearing
variable {files : FileTree} {location : Location} {count : Nat}

theorem get_prune (tree : FileTree) (place location : Location) :
    (tree.prune place).get? location =
      if location ≠ [] ∧ place <+: location then none else tree.get? location := by
  by_cases root : location = []
  · simp [root, get?]
  · by_cases everything : place = []
    · subst everything
      simp [root, get?, prune, Location.isWithin]
    · rw [get?_prune _ _ _ everything]
      simp [root, Location.isWithin, List.isPrefixOf_iff_prefix]

/-- Nothing is different but that something is gone from a place. -/
def OnlyRemoves (place : Location) (tree after : FileTree) : Prop :=
  ∀ location, after.get? location = tree.get? location ∨
    place <+: location ∧ after.get? location = none

theorem removes_nothing (place : Location) (tree : FileTree) : OnlyRemoves place tree tree :=
  fun _ => Or.inl rfl

theorem prune_removes (place : Location) (tree : FileTree) :
    OnlyRemoves place tree (tree.prune place) := by
  intro location
  rw [get_prune]
  split
  · exact Or.inr ⟨And.right ‹_›, rfl⟩
  · exact Or.inl rfl

theorem hollow_removes (place : Location) (tree : FileTree) :
    OnlyRemoves place tree (tree.hollow place) := by
  intro location
  rw [get?_hollow]
  split
  · rename_i inside
    exact Or.inr ⟨List.isPrefixOf_iff_prefix.mp inside.2, rfl⟩
  · exact Or.inl rfl

/-- There are no links in the place of a cache, so removing something from it leaves the links
alone. -/
theorem links_of_removes (placed : Placed cache place w)
    (removes : OnlyRemoves place w.files files) : SameLinks w.files files := by
  intro location target
  rcases removes location with same | ⟨within, gone⟩
  · rw [same]
  · simp [gone, placed.linkless location target within]

/-- A content that is there was there before something was removed. -/
theorem content_of_removes (removes : OnlyRemoves place w.files files) {content : Bytes}
    (there : contentAt? files location = some content) :
    contentAt? w.files location = some content := by
  unfold contentAt? at there ⊢
  rcases removes location with same | ⟨-, gone⟩
  · rwa [same] at there
  · rw [gone] at there
    cases there

/-- Removing something from the place of a cache spares it. -/
theorem spares_removed (placed : Placed cache place w)
    (removes : OnlyRemoves place w.files files) :
    Spares cache place w { w with files } where
  placed := placed_of_same_links _ placed (links_of_removes placed removes) rfl
  results _ _ there := content_of_removes removes there

/-- The root of a cache leads to its place, whether a slash is written after it or not. -/
theorem root_found (placed : Placed cache place w) {node : Node}
    (found : w.files.find (endsInSlash cache.root) w.here cache.root =
      .ok (.taken location node)) : location = place := by
  have led := route_of_walk (walk_of_find found)
  cases closed : endsInSlash cache.root with
  | false =>
    rw [closed] at led
    exact Option.some.inj (led.symm.trans placed.unlinked)
  | true =>
    rw [closed] at led
    rcases pieces_eq_steps cache.root with own | own
    · rw [own] at led
      exact Option.some.inj (led.symm.trans placed.leads)
    · rw [own] at led
      rcases route_append w.files maxLinks (origin w cache.root) (steps cache.root) with
        ⟨reached, left, -, led', onward⟩ | ⟨missed, -⟩
      · obtain rfl := Option.some.inj (led'.symm.trans placed.leads)
        have back := (onward true [""] (Or.inr rfl)).symm.trans led
        rw [route_idle (by decide), route] at back
        exact (Option.some.inj back).symm
      · cases missed.symm.trans placed.leads

/-- Removing the root of a cache removes nothing but what is in its place, whether this succeeds or
fails. -/
theorem remove_root_removes (placed : Placed cache place w) :
    OnlyRemoves place w.files (w.files.removeTree w.here cache.root).2 := by
  unfold removeTree
  split
  · exact removes_nothing place w.files
  · exact removes_nothing place w.files
  · exact removes_nothing place w.files
  · rename_i location target found
    obtain rfl := root_found placed found
    exact absurd (taken_there (by simp) (walk_of_find found))
      (placed.linkless location target List.prefix_rfl)
  · rename_i location found
    obtain rfl := root_found placed found
    split
    · exact prune_removes location w.files
    · dsimp only
      split
      · exact hollow_removes location w.files
      · exact hollow_removes location w.files

/-- Clearing a cache removes nothing but what is in its place, whether it succeeds or fails. -/
theorem clear_removes (placed : Placed cache place w) :
    ∃ files, OnlyRemoves place w.files files ∧
      ((∃ count, cache.clear w = .ok count { w with files }) ∨
        ∃ cause, cache.clear w = .error cause { w with files }) := by
  have removes := remove_root_removes placed
  unfold Cache.clear
  split
  · exact ⟨w.files, removes_nothing place w.files, Or.inl ⟨_, rfl⟩⟩
  · exact ⟨w.files, removes_nothing place w.files, Or.inr ⟨_, rfl⟩⟩
  · cases removed : w.files.removeTree w.here cache.root with
    | mk outcome files =>
      rw [removed] at removes
      refine ⟨files, removes, ?_⟩
      split
      all_goals
        rename_i same
        obtain ⟨rfl, rfl⟩ := Prod.mk.inj same
      · exact Or.inl ⟨_, rfl⟩
      · exact Or.inl ⟨_, rfl⟩
      · exact Or.inr ⟨_, rfl⟩

/-- If the root is there, and its path ends in a name, clearing a cache counts what is in its place and
removes the place. -/
theorem clear_present (placed : Placed cache place w) (named : endsInStep cache.root = false)
    (root : w.files.lookup w.here cache.root = .ok (place, .directory)) :
    cache.clear w = .ok (w.files.children place).length
      { w with files := w.files.prune place } := by
  have listed : w.files.listDirectory w.here cache.root = .ok (w.files.children place) := by
    simp only [listDirectory, root]
  obtain ⟨accepted, walked⟩ := lookup_ok_iff.mp root
  obtain ⟨reached, node, walked'⟩ := walk_unfollowed walked
  have found : w.files.find false w.here cache.root = .ok (.taken reached node) := by
    rw [find_accepted accepted, walked']
  obtain rfl := Option.some.inj ((route_of_walk walked').symm.trans placed.unlinked)
  have solid : ∀ target, node ≠ .link target := by
    rintro target rfl
    exact placed.linkless _ target List.prefix_rfl (taken_there (by simp) walked')
  have same := find_followed found (by simp [solid])
  rw [find_of_lookup root] at same
  obtain ⟨-, rfl⟩ := Spot.taken.inj (Except.ok.inj same)
  have led : w.files.find (endsInSlash cache.root) w.here cache.root =
      .ok (.taken reached .directory) := by
    cases endsInSlash cache.root with
    | false => exact found
    | true => exact find_of_lookup root
  have removable : w.files.removalError? w.here cache.root = none := by
    unfold endsInStep at named
    unfold removalError?
    split at named
    · rename_i piece ends
      simp only [Bool.or_eq_false_iff, decide_eq_false_iff_not] at named
      rw [ends]
      split
      · rename_i none
        cases none
      · rename_i dot
        exact absurd (Option.some.inj dot) named.1
      · rename_i dots
        exact absurd (Option.some.inj dots) named.2
      · rw [found]
    · cases named
  have removed : w.files.removeTree w.here cache.root = (.ok (), w.files.prune reached) := by
    simp only [removeTree, led, removable]
  simp only [Cache.clear, listed, removed]

/-- If the root leads to nothing that is there, clearing a cache removes nothing. -/
theorem clear_absent (absent : ∀ found, w.files.lookup w.here cache.root ≠ .ok found)
    (done : cache.clear w = .ok count after) : count = 0 ∧ after = w := by
  unfold Cache.clear at done
  split at done
  · obtain ⟨rfl, rfl⟩ := EStateM.Result.ok.inj done
    exact ⟨rfl, rfl⟩
  · cases done
  · rename_i names listed
    unfold listDirectory at listed
    split at listed
    · rename_i location looked
      exact absurd looked (absent _)
    · cases listed
    · cases listed

end Clearing

end ContractBuild.CacheChange
