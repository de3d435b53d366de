import ContractBuild.FileTree.Walk
import Mathlib.Data.List.Basic
import Mathlib.Tactic.ByContra

/-! Walks along paths in parts. Walking to the end of one path and on from there is walking along
the two paths put together, and where there are no links a walk depends on nothing but the tree. -/
namespace ContractBuild.PathWalk
open FileTree

variable {tree : FileTree} {follow : Bool} {links : Nat} {at_ : Location} {node : Node}
  {piece : String} {rest : List String}

/-- The bytes of the file at a location. -/
def contentAt? (files : FileTree) (location : Location) : Option Bytes :=
  match files.get? location with
  | some (.file content _) => some content
  | _ => none

theorem content_of_file {location : Location} {content : Bytes} {executable : Bool}
    (there : tree.get? location = some (.file content executable)) :
    contentAt? tree location = some content := by
  simp only [contentAt?, there]

theorem file_of_content {location : Location} {content : Bytes}
    (held : contentAt? tree location = some content) :
    ∃ executable, tree.get? location = some (.file content executable) := by
  unfold contentAt? at held
  split at held
  · rename_i content' executable there
    obtain rfl := Option.some.inj held
    exact ⟨executable, there⟩
  · cases held

section Steps

/-- A piece that names an entry of the directory it is read in. -/
structure IsName (piece : String) : Prop where
  busy : Path.isIdle piece = false
  inner : piece ≠ ".."
  short : Text.byteLength piece.toList ≤ maxNameBytes

instance (piece : String) : Decidable (IsName piece) :=
  decidable_of_iff (Path.isIdle piece = false ∧ piece ≠ ".." ∧
      Text.byteLength piece.toList ≤ maxNameBytes)
    ⟨fun ⟨busy, inner, short⟩ => ⟨busy, inner, short⟩,
      fun name => ⟨name.busy, name.inner, name.short⟩⟩

theorem walk_idle (idle : Path.isIdle piece = true) :
    walk tree follow links at_ .directory (piece :: rest) =
      walk tree follow links at_ .directory rest := by
  rw [walk, if_neg (by simp), if_pos idle]

theorem walk_up : walk tree follow links at_ .directory (".." :: rest) =
    walk tree follow links at_.dropLast .directory rest := by
  rw [walk, if_neg (by simp), if_neg (by decide), if_pos rfl]

theorem walk_outside (outside : node ≠ .directory) :
    walk tree follow links at_ node (piece :: rest) = .error .notDirectory := by
  rw [walk, if_pos outside]

theorem walk_long (busy : Path.isIdle piece = false) (inner : piece ≠ "..")
    (long : Text.byteLength piece.toList > maxNameBytes) :
    walk tree follow links at_ .directory (piece :: rest) = .error .nameTooLong := by
  rw [walk, if_neg (by simp), if_neg (by simp [busy]), if_neg inner, if_pos long]

theorem walk_absent (name : IsName piece) (absent : tree.get? (at_ ++ [piece]) = none) :
    walk tree follow links at_ .directory (piece :: rest) =
      if rest.all (· = "") then .ok (.free (at_ ++ [piece]) !rest.isEmpty) else .error .notFound := by
  rw [walk, if_neg (by simp), if_neg (by simp [name.busy]), if_neg name.inner,
    if_neg (Nat.not_lt.mpr name.short)]
  simp only [absent]

theorem walk_link (name : IsName piece) {target : Path}
    (there : tree.get? (at_ ++ [piece]) = some (.link target))
    (through : rest.all (· = "") = false ∨ follow = true) :
    walk tree follow (links + 1) at_ .directory (piece :: rest) =
      walk tree follow links (if target.isAbsolute then [] else at_) .directory
        (target.pieces ++ rest) := by
  rw [walk, if_neg (by simp), if_neg (by simp [name.busy]), if_neg name.inner,
    if_neg (Nat.not_lt.mpr name.short)]
  simp only [there]
  rw [if_neg (by rcases through with on | followed <;> simp [*])]

theorem walk_link_spent (name : IsName piece) {target : Path}
    (there : tree.get? (at_ ++ [piece]) = some (.link target))
    (through : rest.all (· = "") = false ∨ follow = true) :
    walk tree follow 0 at_ .directory (piece :: rest) = .error .tooManyLinks := by
  rw [walk, if_neg (by simp), if_neg (by simp [name.busy]), if_neg name.inner,
    if_neg (Nat.not_lt.mpr name.short)]
  simp only [there]
  rw [if_neg (by rcases through with on | followed <;> simp [*])]

/-- A link at the end of a walk that does not follow it is where the walk comes to. -/
theorem walk_kept_link (name : IsName piece) {target : Path}
    (there : tree.get? (at_ ++ [piece]) = some (.link target)) (last : rest.all (· = "") = true) :
    walk tree false links at_ .directory (piece :: rest) =
      .ok (.taken (at_ ++ [piece]) (.link target)) := by
  rw [walk, if_neg (by simp), if_neg (by simp [name.busy]), if_neg name.inner,
    if_neg (Nat.not_lt.mpr name.short)]
  simp only [there]
  rw [if_pos ⟨last, by simp⟩]

theorem walk_found (name : IsName piece) (there : tree.get? (at_ ++ [piece]) = some node)
    (solid : ∀ target, node ≠ .link target) :
    walk tree follow links at_ .directory (piece :: rest) =
      walk tree follow links (at_ ++ [piece]) node rest := by
  rw [walk, if_neg (by simp), if_neg (by simp [name.busy]), if_neg name.inner,
    if_neg (Nat.not_lt.mpr name.short)]
  cases node with
  | file content executable => simp only [there]
  | directory => simp only [there]
  | link target => exact absurd rfl (solid target)

end Steps

/-- Pieces that go on after a place: not only the empty pieces that slashes at the end leave. -/
def GoesOn (pieces : List String) : Prop := ∃ piece ∈ pieces, piece ≠ ""

theorem not_final {pieces : List String} (on : GoesOn pieces) (before : List String) :
    (before ++ pieces).all (· = "") = false := by
  obtain ⟨piece, inside, proper⟩ := on
  rw [List.all_eq_false]
  exact ⟨piece, by simp [inside], by simpa using proper⟩

/-- What a walk along a first part decides about walks that go on after it: they start where the
first part leads, or else they fail. Where links are followed to their ends, this holds for what
slashes at the end leave as well. -/
theorem walk_append (tree : FileTree) (links : Nat) (at_ : Location) (node : Node)
    (first : List String) :
    (∃ reached found left, left ≤ links ∧
        walk tree true links at_ node first = .ok (.taken reached found) ∧
        ∀ follow rest, GoesOn rest ∨ follow = true →
          walk tree follow links at_ node (first ++ rest) = walk tree follow left reached found rest) ∨
      ((∀ reached found, walk tree true links at_ node first ≠ .ok (.taken reached found)) ∧
        ∀ follow rest, GoesOn rest →
          ∃ error, walk tree follow links at_ node (first ++ rest) = .error error) := by
  fun_induction walk tree true links at_ node first
  case case1 at_ node =>
    exact Or.inl ⟨at_, node, _, Nat.le_refl _, rfl, fun _ _ _ => rfl⟩
  case case2 piece rest outside =>
    exact Or.inr ⟨by simp, fun _ _ _ => ⟨_, walk_outside outside⟩⟩
  case case3 node piece rest inside idle ih =>
    obtain rfl : node = .directory := Classical.not_not.mp inside
    simpa only [List.cons_append, walk_idle idle] using ih
  case case4 node rest inside busy ih =>
    obtain rfl : node = .directory := Classical.not_not.mp inside
    simpa only [List.cons_append, walk_up] using ih
  case case5 node piece rest inside busy inner long =>
    obtain rfl : node = .directory := Classical.not_not.mp inside
    exact Or.inr ⟨by simp, fun _ _ _ => ⟨_, walk_long (by simpa using busy) inner long⟩⟩
  case case6 node piece rest inside busy inner short next final absent last =>
    obtain rfl : node = .directory := Classical.not_not.mp inside
    have name : IsName piece := ⟨by simpa using busy, inner, Nat.not_lt.mp short⟩
    refine Or.inr ⟨by simp, fun follow rest' on => ⟨.notFound, ?_⟩⟩
    rw [List.cons_append, walk_absent name absent, if_neg (by simp [not_final on])]
  case case7 node piece rest inside busy inner short next final absent more =>
    obtain rfl : node = .directory := Classical.not_not.mp inside
    have name : IsName piece := ⟨by simpa using busy, inner, Nat.not_lt.mp short⟩
    refine Or.inr ⟨by simp, fun follow rest' on => ⟨.notFound, ?_⟩⟩
    rw [List.cons_append, walk_absent name absent, if_neg (by simp [not_final on])]
  case case8 stay => simp at stay
  case case9 node piece rest inside busy inner short next final target there through =>
    obtain rfl : node = .directory := Classical.not_not.mp inside
    have name : IsName piece := ⟨by simpa using busy, inner, Nat.not_lt.mp short⟩
    refine Or.inr ⟨by simp, fun follow rest' on => ⟨.tooManyLinks, ?_⟩⟩
    rw [List.cons_append, walk_link_spent name there (Or.inl (not_final on _))]
  case case10 here node piece rest inside busy inner short next final target there through links ih =>
    simp only [dite_eq_ite] at ih ⊢
    obtain rfl : node = .directory := Classical.not_not.mp inside
    have name : IsName piece := ⟨by simpa using busy, inner, Nat.not_lt.mp short⟩
    have step : ∀ follow rest', GoesOn rest' ∨ follow = true →
        walk tree follow (links + 1) here .directory (piece :: rest ++ rest') =
          walk tree follow links (if target.isAbsolute then [] else here) .directory
            (target.pieces ++ rest ++ rest') := by
      intro follow rest' on
      have through : (rest ++ rest').all (· = "") = false ∨ follow = true :=
        on.imp_left fun on => not_final on _
      rw [List.cons_append, walk_link name there through, List.append_assoc]
    rcases ih with ⟨reached, found, left, less, walked, onward⟩ | ⟨missed, fails⟩
    · refine Or.inl ⟨reached, found, left, Nat.le_succ_of_le less, walked, fun follow rest' on => ?_⟩
      rw [step follow rest' on, onward follow rest' on]
    · refine Or.inr ⟨missed, fun follow rest' on => ?_⟩
      rw [step follow rest' (Or.inl on)]
      exact fails follow rest' on
  case case11 links here node piece rest inside busy inner short next found solid there ih =>
    obtain rfl : node = .directory := Classical.not_not.mp inside
    have name : IsName piece := ⟨by simpa using busy, inner, Nat.not_lt.mp short⟩
    have step : ∀ follow rest', walk tree follow links here .directory (piece :: rest ++ rest') =
        walk tree follow links next found (rest ++ rest') :=
      fun follow rest' => walk_found name there solid
    simpa only [step] using ih

/-- A walk that comes to something that is there has come to something on the way. -/
theorem walk_prefix {reached : Location} {found : Node} {first : List String}
    (walked : walk tree true links at_ node (first ++ rest) = .ok (.taken reached found)) :
    ∃ reached' found', walk tree true links at_ node first = .ok (.taken reached' found') := by
  fun_induction walk tree true links at_ node first
  case case1 => exact ⟨_, _, rfl⟩
  case case2 outside =>
    rw [List.cons_append, walk_outside outside] at walked
    cases walked
  case case3 inside idle ih =>
    obtain rfl := Classical.not_not.mp inside
    rw [List.cons_append, walk_idle idle] at walked
    exact ih walked
  case case4 inside busy ih =>
    obtain rfl := Classical.not_not.mp inside
    rw [List.cons_append, walk_up] at walked
    exact ih walked
  case case5 inside busy inner long =>
    obtain rfl := Classical.not_not.mp inside
    rw [List.cons_append, walk_long (by simpa using busy) inner long] at walked
    cases walked
  case case6 inside busy inner short next final absent last =>
    obtain rfl := Classical.not_not.mp inside
    have name : IsName _ := ⟨by simpa using busy, inner, Nat.not_lt.mp short⟩
    rw [List.cons_append, walk_absent name absent] at walked
    split at walked <;> cases walked
  case case7 inside busy inner short next final absent more =>
    obtain rfl := Classical.not_not.mp inside
    have name : IsName _ := ⟨by simpa using busy, inner, Nat.not_lt.mp short⟩
    rw [List.cons_append, walk_absent name absent] at walked
    split at walked <;> cases walked
  case case8 stay => simp at stay
  case case9 inside busy inner short next final target there through =>
    obtain rfl := Classical.not_not.mp inside
    have name : IsName _ := ⟨by simpa using busy, inner, Nat.not_lt.mp short⟩
    rw [List.cons_append, walk_link_spent name there (Or.inr rfl)] at walked
    cases walked
  case case10 inside busy inner short next final target there through links ih =>
    obtain rfl := Classical.not_not.mp inside
    have name : IsName _ := ⟨by simpa using busy, inner, Nat.not_lt.mp short⟩
    rw [List.cons_append, walk_link name there (Or.inr rfl), ← List.append_assoc] at walked
    exact ih walked
  case case11 inside busy inner short next passed solid there ih =>
    obtain rfl := Classical.not_not.mp inside
    have name : IsName _ := ⟨by simpa using busy, inner, Nat.not_lt.mp short⟩
    rw [List.cons_append, walk_found name there solid] at walked
    exact ih walked

/-- A walk that comes to something with the links on it followed comes to something if a link at its
end is not. -/
theorem walk_unfollowed {reached : Location} {found : Node} {pieces : List String}
    (walked : walk tree true links at_ node pieces = .ok (.taken reached found)) :
    ∃ reached' found', walk tree false links at_ node pieces = .ok (.taken reached' found') := by
  fun_induction walk tree true links at_ node pieces
  case case1 => exact ⟨_, _, by rw [walk]⟩
  case case2 => cases walked
  case case3 inside idle ih =>
    obtain rfl := Classical.not_not.mp inside
    rw [walk_idle idle]
    exact ih walked
  case case4 inside busy ih =>
    obtain rfl := Classical.not_not.mp inside
    rw [walk_up]
    exact ih walked
  case case5 => cases walked
  case case6 => cases walked
  case case7 => cases walked
  case case8 stay => simp at stay
  case case9 => cases walked
  case case10 rest inside busy inner short next final target there through links ih =>
    obtain rfl := Classical.not_not.mp inside
    have name : IsName _ := ⟨by simpa using busy, inner, Nat.not_lt.mp short⟩
    by_cases last : rest.all (· = "") = true
    · exact ⟨next, .link target, walk_kept_link name there last⟩
    · rw [walk_link name there (Or.inl (by simpa using last))]
      exact ih walked
  case case11 inside busy inner short next passed solid there ih =>
    obtain rfl := Classical.not_not.mp inside
    have name : IsName _ := ⟨by simpa using busy, inner, Nat.not_lt.mp short⟩
    rw [walk_found name there solid]
    exact ih walked

private theorem taken_there_from {location : Location} {found : Node} {pieces : List String}
    (start : node = .directory ∨ tree.get? at_ = some node) (inner : found ≠ .directory)
    (walked : walk tree follow links at_ node pieces = .ok (.taken location found)) :
    tree.get? location = some found := by
  fun_induction walk tree follow links at_ node pieces <;> simp_all

/-- What a walk finds at its end is there. -/
theorem taken_there {location : Location} {found : Node} {pieces : List String}
    (inner : found ≠ .directory)
    (walked : walk tree follow links at_ .directory pieces = .ok (.taken location found)) :
    tree.get? location = some found :=
  taken_there_from (Or.inl rfl) inner walked

/-- A path is found by walking along its pieces from the root or the working directory. -/
theorem walk_of_find {here : Location} {path : Path} {spot : Spot}
    (found : tree.find follow here path = .ok spot) :
    walk tree follow maxLinks (if path.isAbsolute then [] else here) .directory path.pieces =
      .ok spot := by
  unfold find at found
  split at found
  · cases found
  · split at found
    · cases found
    · split at found
      · cases found
      · exact found

theorem byte_length_append (first second : List Char) :
    Text.byteLength (first ++ second) = Text.byteLength first + Text.byteLength second := by
  induction first with
  | nil => simp [Text.byteLength]
  | cons c first ih =>
    simp only [List.cons_append, Text.byteLength, ih]
    omega

/-- A path whose text the system takes. -/
structure Accepted (path : Path) : Prop where
  whole : '\x00' ∉ path.text.toList
  nonempty : path.text ≠ ""
  short : Text.byteLength path.text.toList ≤ maxPathBytes

instance (path : Path) : Decidable (Accepted path) :=
  decidable_of_iff ('\x00' ∉ path.text.toList ∧ path.text ≠ "" ∧
      Text.byteLength path.text.toList ≤ maxPathBytes)
    ⟨fun ⟨whole, nonempty, short⟩ => ⟨whole, nonempty, short⟩,
      fun accepted => ⟨accepted.whole, accepted.nonempty, accepted.short⟩⟩

theorem find_accepted {here : Location} {path : Path} (accepted : Accepted path) :
    tree.find follow here path =
      walk tree follow maxLinks (if path.isAbsolute then [] else here) .directory path.pieces := by
  simp [find, accepted.whole, accepted.nonempty, Nat.not_lt.mpr accepted.short]

/-- A path leads to what is there if the system takes its text and a walk along it comes there. -/
theorem lookup_ok_iff {here location : Location} {path : Path} {found : Node} :
    tree.lookup here path = .ok (location, found) ↔ Accepted path ∧
      walk tree true maxLinks (if path.isAbsolute then [] else here) .directory path.pieces =
        .ok (.taken location found) := by
  by_cases accepted : Accepted path
  · simp only [lookup, find_accepted accepted, accepted, true_and]
    split <;> simp_all
  · simp only [accepted, false_and, iff_false, lookup]
    intro looked
    split at looked
    · rename_i spot
      unfold find at spot
      split at spot
      · cases spot
      · rename_i whole
        split at spot
        · cases spot
        · rename_i nonempty
          split at spot
          · cases spot
          · rename_i short
            exact accepted ⟨by simpa using whole, nonempty, Nat.not_lt.mp short⟩
    · cases looked
    · cases looked

theorem find_of_lookup {here location : Location} {path : Path} {found : Node}
    (looked : tree.lookup here path = .ok (location, found)) :
    tree.find true here path = .ok (.taken location found) := by
  obtain ⟨accepted, walked⟩ := lookup_ok_iff.mp looked
  rw [find_accepted accepted, walked]

/-- Idle pieces lead nowhere else. -/
theorem walk_idles {pieces : List String} (idle : ∀ piece ∈ pieces, Path.isIdle piece = true) :
    walk tree follow links at_ .directory pieces = .ok (.taken at_ .directory) := by
  induction pieces with
  | nil => rw [walk]
  | cons piece pieces ih =>
    rw [walk_idle (idle piece (by simp))]
    exact ih fun other inside => idle other (List.mem_cons_of_mem _ inside)

theorem walk_past_idles {inner : List String}
    (idle : ∀ piece ∈ inner, Path.isIdle piece = true) :
    walk tree follow links at_ .directory (inner ++ rest) =
      walk tree follow links at_ .directory rest := by
  induction inner with
  | nil => rfl
  | cons piece inner ih =>
    rw [List.cons_append, walk_idle (idle piece (by simp))]
    exact ih fun other inside => idle other (List.mem_cons_of_mem _ inside)

/-- A tree without symbolic links. -/
def Linkless (tree : FileTree) : Prop :=
  ∀ location target, tree.get? location ≠ some (.link target)

/-- Without links a walk has no use for a count of them. -/
theorem walk_linkless (linkless : Linkless tree) (links links' : Nat) (at_ : Location) (node : Node)
    (pieces : List String) :
    walk tree true links at_ node pieces = walk tree true links' at_ node pieces := by
  induction pieces generalizing at_ node with
  | nil => rw [walk, walk]
  | cons piece rest ih =>
    by_cases inside : node = .directory
    · subst inside
      by_cases idle : Path.isIdle piece = true
      · rw [walk_idle idle, walk_idle idle, ih]
      by_cases up : piece = ".."
      · subst up
        rw [walk_up, walk_up, ih]
      by_cases long : Text.byteLength piece.toList > maxNameBytes
      · rw [walk_long (by simpa using idle) up long, walk_long (by simpa using idle) up long]
      have name : IsName piece := ⟨by simpa using idle, up, Nat.not_lt.mp long⟩
      cases there : tree.get? (at_ ++ [piece]) with
      | none => rw [walk_absent name there, walk_absent name there]
      | some found =>
        have solid : ∀ target, found ≠ .link target := by
          rintro target rfl
          exact linkless _ _ there
        rw [walk_found name there solid, walk_found name there solid, ih]
    · rw [walk_outside inside, walk_outside inside]

/-- A file is in the directory that its last name is read in. -/
theorem walk_to_file (linkless : Linkless tree) {inner outer : List String} {last : String}
    {location : Location} {content : Bytes} {executable : Bool}
    (innerIdle : ∀ piece ∈ inner, Path.isIdle piece = true)
    (outerIdle : ∀ piece ∈ outer, Path.isIdle piece = true)
    (walked : walk tree true links at_ node (inner ++ last :: outer) =
      .ok (.taken location (.file content executable))) :
    node = .directory ∧ location = at_ ++ [last] := by
  have inside : node = .directory := by
    by_contra outside
    cases inner with
    | nil => simp [walk_outside outside] at walked
    | cons piece inner => simp [walk_outside outside] at walked
  subst inside
  refine ⟨rfl, ?_⟩
  rw [walk_past_idles innerIdle] at walked
  by_cases idle : Path.isIdle last = true
  · simp [walk_idle idle, walk_idles outerIdle] at walked
  by_cases up : last = ".."
  · subst up
    simp [walk_up, walk_idles outerIdle] at walked
  by_cases long : Text.byteLength last.toList > maxNameBytes
  · simp [walk_long (by simpa using idle) up long] at walked
  have name : IsName last := ⟨by simpa using idle, up, Nat.not_lt.mp long⟩
  cases there : tree.get? (at_ ++ [last]) with
  | none =>
    rw [walk_absent name there] at walked
    split at walked <;> simp at walked
  | some found =>
    have solid : ∀ target, found ≠ .link target := by
      rintro target rfl
      exact linkless _ _ there
    rw [walk_found name there solid] at walked
    cases outer with
    | nil =>
      simp only [walk, Except.ok.injEq, Spot.taken.injEq] at walked
      exact walked.1.symm
    | cons piece outer =>
      by_cases directory : found = .directory
      · simp [directory, walk_idles outerIdle] at walked
      · simp [walk_outside directory] at walked

end ContractBuild.PathWalk
