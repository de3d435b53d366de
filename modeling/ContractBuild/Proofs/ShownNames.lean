import ContractBuild.Pipeline
import ContractBuild.Proofs.CachePlace
import ContractBuild.Proofs.Resolution

/-! The names in a request and the paths shown for them. Neither is ever an empty text, so putting
paths in the place of names leaves an empty text empty and no other one. -/
namespace ContractBuild.ShownNames
open CachePlace FileTree ImportTargets PathPieces PathWalk Resolution Source

section Walks
variable {search : Search} {root : Option Location} {Kept : Walk → Prop}

/-- A property of walks that survives whatever a walk does: entering a file, and adding one to the
bundle. -/
structure Preserved (search : Search) (root : Option Location) (Kept : Walk → Prop) : Prop where
  visit : ∀ walk location key, Kept walk → Kept (walk.visit location key)
  add : ∀ walk path location content executable file,
    search.files.lookup search.here path = .ok (location, .file content executable) → Kept walk →
    Kept (walk.add ((Digest.ofContent content).fileName search.language) path
      (shownPath root location) file)

mutual

/-- What every step of a walk preserves holds after the visit of a file and of all it imports. -/
theorem visit_keeps (preserved : Preserved search root Kept) {walk : Walk} {path : Path}
    {onward : Onward search.files walk String} (kept : Kept walk)
    (done : visit search root walk path = .ok onward) : Kept onward.reached := by
  cases looked : search.files.lookup search.here path with
  | error cause =>
    rw [visit_unread looked] at done
    cases done
  | ok reached =>
    obtain ⟨location, node⟩ := reached
    cases new : walk.keyOf? location with
    | some key =>
      rw [visit_seen looked new] at done
      obtain rfl := Except.ok.inj done
      exact kept
    | none =>
      cases node with
      | file content executable =>
        cases decoded : Text.ofUtf8? content with
        | none =>
          rw [visit_undecodable looked new decoded] at done
          cases done
        | some text =>
          have fewer := Walk.unvisited_visit_lt
            ((Digest.ofContent content).fileName search.language) (get?_of_lookup looked)
            (by simp) new
          rw [visit_file looked new decoded rfl] at done
          split at done
          · cases done
          · rename_i replacements after grown walked
            have visited : Kept after :=
              visit_imports_keep preserved (preserved.visit _ _ _ kept) walked
            dsimp only at done
            split at done
            · split at done
              · obtain rfl := Except.ok.inj done
                exact visited
              · cases done
            · obtain rfl := Except.ok.inj done
              exact preserved.add _ _ _ _ _ _ looked visited
      | directory =>
        rw [visit_no_file looked new (by simp)] at done
        cases done
      | link target =>
        rw [visit_no_file looked new (by simp)] at done
        cases done
termination_by (walk.unvisited search.files, 0)
decreasing_by exact Prod.Lex.left _ _ fewer

theorem visit_imports_keep (preserved : Preserved search root Kept) {walk : Walk}
    {importer : Path} {imports : List Import}
    {onward : Onward search.files walk (List (Span × List Char))} (kept : Kept walk)
    (done : visitImports search root walk importer imports = .ok onward) :
    Kept onward.reached := by
  match imports with
  | [] =>
    rw [visit_imports_nil] at done
    obtain rfl := Except.ok.inj done
    exact kept
  | directive :: rest =>
    rw [visit_imports_cons] at done
    split at done
    · cases done
    · split at done
      · cases done
      · rename_i key reached grown walked
        have fewer := Nat.lt_or_eq_of_le grown
        have visited : Kept reached := visit_keeps preserved kept walked
        split at done
        · cases done
        · rename_i replacements after grown' walked'
          obtain rfl := Except.ok.inj done
          have visited' : Kept after := visit_imports_keep preserved visited walked'
          exact visited'
termination_by (walk.unvisited search.files, imports.length + 1)
decreasing_by
  · exact Prod.Lex.right _ (by simp)
  · rcases fewer with fewer | same
    · exact Prod.Lex.left _ _ fewer
    · rw [same]
      exact Prod.Lex.right _ (by simp)

end

end Walks

section Places
variable {tree : FileTree} {follow : Bool} {links : Nat} {at_ reached here : Location}
  {node found : Node} {pieces : List String} {path : Path}

/-- A location is a directory, and so is everything above it. -/
def Solid (tree : FileTree) (location : Location) : Prop :=
  ∀ above, above <+: location → tree.get? above = some .directory

private theorem solid_up (solid : Solid tree at_) : Solid tree at_.dropLast :=
  fun above inside => solid above (inside.trans (List.dropLast_prefix at_))

private theorem solid_down {name : String} (solid : Solid tree at_)
    (there : tree.get? (at_ ++ [name]) = some .directory) : Solid tree (at_ ++ [name]) := by
  intro above inside
  rcases List.prefix_concat_iff.mp inside with rfl | inside
  · exact there
  · exact solid above inside

theorem solid_top : Solid tree [] := by
  intro above inside
  rw [List.prefix_nil.mp inside]
  rfl

/-- What a walk stands on: a solid directory, or something else that has a name. -/
structure Standing (tree : FileTree) (location : Location) (node : Node) : Prop where
  solid : node = .directory → Solid tree location
  named : node ≠ .directory → ∃ front name, location = front ++ [name] ∧ name ≠ ""

theorem standing_of_solid (solid : Solid tree at_) : Standing tree at_ .directory where
  solid _ := solid
  named outside := absurd rfl outside

private theorem standing_down {name : String} (solid : Solid tree at_) (isName : IsName name)
    (there : tree.get? (at_ ++ [name]) = some found) : Standing tree (at_ ++ [name]) found where
  solid directory := solid_down solid (directory ▸ there)
  named _ := by
    refine ⟨at_, name, rfl, ?_⟩
    rintro rfl
    exact absurd isName.busy (by decide)

theorem walk_standing (start : Standing tree at_ node)
    (walked : walk tree follow links at_ node pieces = .ok (.taken reached found)) :
    Standing tree reached found := by
  fun_induction walk tree follow links at_ node pieces
  case case1 =>
    obtain ⟨rfl, rfl⟩ := Spot.taken.inj (Except.ok.inj walked)
    exact start
  case case2 => cases walked
  case case3 ih => exact ih start walked
  case case4 inside busy ih =>
    obtain rfl := Classical.not_not.mp inside
    exact ih (standing_of_solid (solid_up (start.solid rfl))) walked
  case case5 => cases walked
  case case6 => cases walked
  case case7 => cases walked
  case case8 inside busy inner short next final target there stays =>
    obtain rfl := Classical.not_not.mp inside
    obtain ⟨rfl, rfl⟩ := Spot.taken.inj (Except.ok.inj walked)
    exact standing_down (start.solid rfl) ⟨by simpa using busy, inner, Nat.not_lt.mp short⟩ there
  case case9 => cases walked
  case case10 inside busy inner short next final target there on links ih =>
    obtain rfl := Classical.not_not.mp inside
    refine ih (standing_of_solid ?_) walked
    split
    · exact solid_top
    · exact start.solid rfl
  case case11 inside busy inner short next found solid there ih =>
    obtain rfl := Classical.not_not.mp inside
    have name : IsName _ := ⟨by simpa using busy, inner, Nat.not_lt.mp short⟩
    exact ih (standing_down (start.solid rfl) name there) walked

/-- From a solid directory a path leads to a solid directory or to something that has a name. -/
theorem lookup_standing (solid : Solid tree here)
    (looked : tree.lookup here path = .ok (reached, found)) : Standing tree reached found := by
  obtain ⟨-, walked⟩ := lookup_ok_iff.mp looked
  refine walk_standing (standing_of_solid ?_) walked
  split
  · exact solid_top
  · exact solid

/-- The directory of a path that leads to a file is a directory. -/
theorem directory_of_file {content : Bytes} {executable : Bool}
    (looked : tree.lookup here path = .ok (at_, .file content executable))
    (above : tree.lookup here path.directory = .ok (reached, found)) : found = .directory := by
  obtain ⟨-, walked⟩ := lookup_ok_iff.mp looked
  obtain ⟨-, walked'⟩ := lookup_ok_iff.mp above
  have dot : (Path.mk ".").pieces = ["."] := by decide
  have still : ∀ start, walk tree true maxLinks start .directory ["."] =
      .ok (.taken start .directory) := fun start => walk_idles (by decide)
  unfold Path.directory at walked'
  split at walked'
  · rename_i parent written
    split at walked'
    · rw [dot, still] at walked'
      exact (Spot.taken.inj (Except.ok.inj walked')).2.symm
    · obtain ⟨inside, left, -, -, -, -, -, -, onward⟩ := parent_reached written walked
      rcases pieces_eq_steps parent with own | own
      · rw [own, ← List.append_nil (steps parent), onward, walk] at walked'
        exact (Spot.taken.inj (Except.ok.inj walked')).2.symm
      · rw [own, onward, walk_idles (by decide)] at walked'
        exact (Spot.taken.inj (Except.ok.inj walked')).2.symm
  · rw [dot, still] at walked'
    exact (Spot.taken.inj (Except.ok.inj walked')).2.symm

end Places

section Shown
variable {tree : FileTree} {here location : Location} {path : Path} {root : Option Location}

private theorem of_pieces_visible {front : List String} {name : String} (visible : name ≠ "") :
    (Path.ofPieces (front ++ [name])).text ≠ "" := by
  have nonempty : name.toList ≠ [] := by simpa [String.toList_eq_nil_iff] using visible
  rw [Ne, ← String.toList_eq_nil_iff, Path.ofPieces, String.toList_ofList]
  cases front with
  | nil => simpa [Text.join] using nonempty
  | cons piece front => cases front <;> simp [Text.join]

/-- The path shown for a file is not the empty text. -/
theorem shown_visible {content : Bytes} {executable : Bool} (solid : Solid tree here)
    (looked : tree.lookup here path = .ok (location, .file content executable))
    (above : ∀ directory, root = some directory → tree.get? directory = some .directory) :
    (shownPath root location).text ≠ "" := by
  obtain ⟨front, name, own, visible⟩ := (lookup_standing solid looked).named (by simp)
  have there := get?_of_lookup looked
  unfold shownPath
  split
  · rename_i inner below
    obtain ⟨directory, rfl, below⟩ := Option.bind_eq_some_iff.mp below
    have whole := Location.below?_eq_some_iff.mp below
    rcases List.eq_nil_or_concat' inner with rfl | ⟨front', name', rfl⟩
    · rw [List.append_nil] at whole
      rw [whole, above directory rfl] at there
      cases there
    · rw [own, ← List.append_assoc] at whole
      obtain ⟨-, same⟩ := List.append_inj' whole rfl
      obtain rfl := List.singleton_injective same
      exact of_pieces_visible visible
  · simp [Location.path, Path.rooted]

end Shown

section Tables
variable {names : Names} {key : String} {shown : Path}

/-- No name of a table is the empty text, and none is shown as the empty text. -/
def Visible (names : Names) : Prop :=
  ∀ entry ∈ names.paths.entries, entry.1 ≠ "" ∧ entry.2.text ≠ ""

theorem visible_insert (visible : Visible names) (named : key ≠ "") (seen : shown.text ≠ "") :
    Visible (names.insert key shown) := by
  intro entry inside
  unfold Names.insert KeyMap.insertNew at inside
  split at inside
  · exact visible entry inside
  · rcases KeyMap.mem_place inside with rfl | inside
    · exact ⟨named, seen⟩
    · exact visible entry inside

/-- The directory below which files are shown by their paths from there is one. -/
private theorem root_is_directory {tree : FileTree} {here location directory : Location}
    {entry : Path} {content : Bytes} {executable : Bool} (solid : Solid tree here)
    (looked : tree.lookup here entry = .ok (location, .file content executable))
    (found : (tree.canonical here entry.directory).toOption = some directory) :
    tree.get? directory = some .directory := by
  cases above : tree.lookup here entry.directory with
  | error cause => simp [canonical, above, Except.map, Except.toOption] at found
  | ok reached =>
    obtain ⟨there, node⟩ := reached
    obtain rfl : there = directory := by
      simpa [canonical, above, Except.map, Except.toOption] using found
    obtain rfl := directory_of_file looked above
    exact (lookup_standing solid above).solid rfl _ List.prefix_rfl

/-- What the walk that starts with nothing has, and every step of a walk preserves, the walk for a
request has. -/
private theorem prepared_keeps (Kept : Walk → Prop) {w : Workspace} {roots : List Path}
    {entry : Path} {options : Options} {prepared : Prepared}
    (made : prepare w roots entry options = .ok prepared) (first : Kept Walk.start)
    (preserved : ∀ language, (∃ location content executable,
        w.files.lookup w.here entry = .ok (location, .file content executable)) →
      Preserved ⟨w.files, w.here, language, roots⟩
        (w.files.canonical w.here entry.directory).toOption Kept) :
    ∃ walk : Walk, Kept walk ∧ prepared.request.includes = walk.includes ∧
      prepared.names = walk.names := by
  unfold prepare at made
  split at made
  · cases made
  · rename_i language _
    split at made
    · cases made
    · rename_i bundle resolved
      obtain rfl := Except.ok.inj made
      rw [resolve_eq] at resolved
      split at resolved
      · cases resolved
      · rename_i key walk grown visited
        obtain rfl := Except.ok.inj resolved
        exact ⟨walk, visit_keeps (preserved language (entry_is_file visited)) first visited, rfl, rfl⟩

/-- The table of a request, made in a workspace whose working directory is there, is visible. -/
theorem prepared_visible {w : Workspace} {roots : List Path} {entry : Path} {options : Options}
    {prepared : Prepared} (solid : Solid w.files w.here)
    (made : prepare w roots entry options = .ok prepared) : Visible prepared.names := by
  have first : Visible Walk.start.names := by
    intro entry inside
    cases inside
  obtain ⟨walk, visible, -, same⟩ := prepared_keeps (fun walk => Visible walk.names) made first
    fun language found => {
      visit := fun walk location key visible => visible
      add := fun walk path location content executable file looked visible => by
        obtain ⟨_, _, _, entered⟩ := found
        exact visible_insert visible (plain_visible (file_name_plain _ _))
          (shown_visible solid looked fun _ => root_is_directory solid entered) }
  rw [same]
  exact visible

/-- The files of a bundle are named by contents. -/
theorem bundle_keys {search : Search} {entry : Path} {bundle : Bundle}
    (resolved : resolve search entry = .ok bundle) :
    ∀ file ∈ bundle.includes.entries, ∃ digest : Digest, file.1 = digest.fileName search.language := by
  rw [resolve_eq] at resolved
  split at resolved
  · cases resolved
  · rename_i key walk grown visited
    obtain rfl := Except.ok.inj resolved
    have preserved : Preserved search (search.files.canonical search.here entry.directory).toOption
        fun walk => ∀ file ∈ walk.includes.entries,
          ∃ digest : Digest, file.1 = digest.fileName search.language := {
      visit := fun walk location key named => named
      add := fun walk path location content executable file _ named other inside => by
        rcases KeyMap.mem_place inside with rfl | inside
        · exact ⟨_, rfl⟩
        · exact named other inside }
    exact visit_keeps preserved (fun file inside => by cases inside) visited

/-- The files in a request are named by contents. -/
theorem prepared_keys {w : Workspace} {roots : List Path} {entry : Path} {options : Options}
    {prepared : Prepared} (made : prepare w roots entry options = .ok prepared) :
    ∀ file ∈ prepared.request.includes.entries,
      ∃ (digest : Digest) (language : Language), file.1 = digest.fileName language := by
  unfold prepare at made
  split at made
  · cases made
  · rename_i language _
    split at made
    · cases made
    · rename_i bundle resolved
      obtain rfl := Except.ok.inj made
      intro file inside
      obtain ⟨digest, named⟩ := bundle_keys resolved file inside
      exact ⟨digest, language, named⟩

/-- The names of the files in a request are plain. -/
theorem prepared_plain {w : Workspace} {roots : List Path} {entry : Path} {options : Options}
    {prepared : Prepared} (made : prepare w roots entry options = .ok prepared) :
    ∀ file ∈ prepared.request.includes.entries, Plain file.1 := by
  intro file inside
  obtain ⟨digest, language, named⟩ := prepared_keys made file inside
  rw [named]
  exact file_name_plain digest language

/-- No name in the table of a request is the empty text, wherever the request was made. -/
theorem prepared_named {w : Workspace} {roots : List Path} {entry : Path} {options : Options}
    {prepared : Prepared} (made : prepare w roots entry options = .ok prepared) :
    ∀ listed ∈ prepared.names.paths.entries, listed.1 ≠ "" := by
  obtain ⟨walk, named, -, same⟩ := prepared_keeps
    (fun walk => ∀ listed ∈ walk.names.paths.entries, listed.1 ≠ "") made
    (fun listed inside => by cases inside) fun language _ => {
      visit := fun walk location key named => named
      add := fun walk path location content executable file _ named other inside => by
        simp only [Walk.add, Names.insert, KeyMap.insertNew] at inside
        split at inside
        · exact named other inside
        · rcases KeyMap.mem_place inside with rfl | inside
          · exact plain_visible (file_name_plain _ _)
          · exact named other inside }
  rw [same]
  exact named

/-- An empty text stays empty, whatever the names are shown as. -/
theorem restore_empty (named : ∀ listed ∈ names.paths.entries, listed.1 ≠ "") :
    names.restore "" = "" := by
  have kept : ∀ entries : List (String × Path), (∀ listed ∈ entries, listed.1 ≠ "") →
      entries.foldl (fun text listed =>
        Text.replace listed.1.toList listed.2.text.toList text) [] = [] := by
    intro entries
    induction entries with
    | nil => simp
    | cons first entries ih =>
      intro named
      have visible : first.1.toList ≠ [] := by
        simpa [String.toList_eq_nil_iff] using named first (by simp)
      obtain ⟨head, tail, shape⟩ := List.exists_cons_of_ne_nil visible
      have nothing : Text.replace first.1.toList first.2.text.toList [] = [] := by
        simp [shape, Text.replace, Text.replaceFrom]
      rw [List.foldl_cons, nothing]
      exact ih fun listed inside => named listed (by simp [inside])
  rw [← String.toList_eq_nil_iff, Names.restore, String.toList_ofList]
  exact kept _ named

private theorem replace_eq_nil_iff {old new text : List Char} (named : old ≠ []) (seen : new ≠ []) :
    Text.replace old new text = [] ↔ text = [] := by
  obtain ⟨head, tail, rfl⟩ := List.exists_cons_of_ne_nil named
  cases text with
  | nil => simp [Text.replace, Text.replaceFrom]
  | cons c text =>
    rw [Text.replace, Text.replaceFrom]
    split <;> simp [seen]

/-- Putting paths in the place of names leaves an empty text empty, and no other one. -/
theorem restore_eq_empty_iff (visible : Visible names) (text : String) :
    names.restore text = "" ↔ text = "" := by
  have kept : ∀ (entries : List (String × Path)) (text : List Char),
      (∀ entry ∈ entries, entry.1 ≠ "" ∧ entry.2.text ≠ "") →
      (entries.foldl (fun text entry =>
        Text.replace entry.1.toList entry.2.text.toList text) text = [] ↔ text = []) := by
    intro entries
    induction entries with
    | nil => simp
    | cons entry entries ih =>
      intro text visible
      obtain ⟨named, seen⟩ := visible entry (by simp)
      rw [List.foldl_cons, ih _ fun other inside => visible other (by simp [inside]),
        replace_eq_nil_iff (by simpa [String.toList_eq_nil_iff] using named)
          (by simpa [String.toList_eq_nil_iff] using seen)]
  rw [Names.restore, ← String.toList_eq_nil_iff, String.toList_ofList, kept _ _ visible,
    String.toList_eq_nil_iff]

end Tables

end ContractBuild.ShownNames
