import ContractBuild.Path
import Mathlib.Data.List.Basic
import Mathlib.Data.List.TakeWhile

/-! The pieces of paths that are put together or taken apart. A joined path has the pieces of the
directory and then those of the path written after it; a path with a parent has the pieces of the
parent, a name, and nothing but pieces that stay where they are. -/
namespace ContractBuild.PathPieces

section Split
variable {separator : Char} {a b : List Char}

/-- A separator between two texts is where their fields meet. -/
theorem split_append (separator : Char) (a b : List Char) :
    Text.split (· == separator) (a ++ separator :: b) =
      Text.split (· == separator) a ++ Text.split (· == separator) b := by
  induction a with
  | nil => simp [Text.split]
  | cons c a ih =>
    by_cases hit : (c == separator) = true
    · simp [Text.split, hit, ih]
    · simp only [List.cons_append, Text.split, hit, Bool.false_eq_true, ↓reduceIte, ih]
      cases fields : Text.split (· == separator) a with
      | nil => exact absurd fields (Text.split_ne_nil _ _)
      | cons field fields => simp

theorem split_of_not_mem (absent : separator ∉ a) : Text.split (· == separator) a = [a] := by
  induction a with
  | nil => rfl
  | cons c a ih =>
    have different : (c == separator) = false := by
      simpa using fun same : c = separator => absent (by simp [same])
    simp only [Text.split, different, Bool.false_eq_true, ↓reduceIte,
      ih fun inside => absent (List.mem_cons_of_mem _ inside)]

theorem not_mem_of_mem_split {field : List Char} (inside : field ∈ Text.split (· == separator) a) :
    separator ∉ field := by
  induction a generalizing field with
  | nil =>
    simp only [Text.split, List.mem_singleton] at inside
    simp [inside]
  | cons c a ih =>
    simp only [Text.split] at inside
    split at inside
    · rcases List.mem_cons.mp inside with rfl | inside
      · simp
      · exact ih inside
    · rename_i different
      split at inside
      · rename_i none
        exact absurd none (Text.split_ne_nil _ _)
      · rename_i first fields shape
        rcases List.mem_cons.mp inside with rfl | inside
        · have := @ih first (by simp [shape])
          intro found
          rcases List.mem_cons.mp found with rfl | found
          · simp at different
          · exact this found
        · exact ih (by simp [shape, inside])

/-- Joining fields and splitting the result gives the fields back if none holds the separator. -/
theorem split_join (separator : Char) (fields : List (List Char)) (nonempty : fields ≠ [])
    (absent : ∀ field ∈ fields, separator ∉ field) :
    Text.split (· == separator) (Text.join [separator] fields) = fields := by
  induction fields with
  | nil => exact absurd rfl nonempty
  | cons field rest ih =>
    cases rest with
    | nil => exact split_of_not_mem (absent field (by simp))
    | cons next rest =>
      have later := ih (by simp) fun other inside => absent other (List.mem_cons_of_mem _ inside)
      simp only [Text.join, List.append_assoc, List.singleton_append, split_append, later,
        split_of_not_mem (absent field (by simp)), List.singleton_append]

theorem mem_join_iff {c : Char} (plain : c ≠ separator) (fields : List (List Char)) :
    c ∈ Text.join [separator] fields ↔ ∃ field ∈ fields, c ∈ field := by
  induction fields with
  | nil => simp [Text.join]
  | cons field rest ih =>
    cases rest with
    | nil => simp [Text.join]
    | cons next rest =>
      rw [Text.join, List.mem_append, List.mem_append, ih]
      simp [plain]

/-- The last field is empty exactly for a text that is empty or ends in the separator. -/
theorem last_field_empty_iff (separator : Char) (a : List Char) :
    (Text.split (· == separator) a).getLast? = some [] ↔ a = [] ∨ a.getLast? = some separator := by
  rcases List.eq_nil_or_concat' a with rfl | ⟨front, last, rfl⟩
  · simp [Text.split]
  · by_cases same : last = separator
    · subst same
      rw [split_append]
      simp [Text.split]
    · obtain ⟨fields, field, shape⟩ : ∃ fields field,
          Text.split (· == separator) (front ++ [last]) = fields ++ [field ++ [last]] := by
        induction front with
        | nil => exact ⟨[], [], by simp [Text.split, same]⟩
        | cons c front ih =>
          obtain ⟨fields, field, shape⟩ := ih
          by_cases hit : (c == separator) = true
          · exact ⟨[] :: fields, field, by simp [Text.split, hit, shape]⟩
          · cases fields with
            | nil => exact ⟨[], c :: field, by simp [Text.split, hit, shape]⟩
            | cons first fields =>
              exact ⟨(c :: first) :: fields, field, by simp [Text.split, hit, shape]⟩
      simp [shape, same]

end Split

/-- The pieces of a directory's path less the empty piece that follows a slash at its end. -/
def steps (path : Path) : List String :=
  if path.pieces.getLast? = some "" then path.pieces.dropLast else path.pieces

theorem pieces_ne_nil (path : Path) : path.pieces ≠ [] := by
  simpa [Path.pieces] using Text.split_ne_nil (· == '/') path.text.toList

theorem last_piece_empty_iff (path : Path) :
    path.pieces.getLast? = some "" ↔
      path.text.toList = [] ∨ path.text.toList.getLast? = some '/' := by
  rw [← last_field_empty_iff, Path.pieces, List.getLast?_map, Option.map_eq_some_iff]
  constructor
  · rintro ⟨field, found, empty⟩
    rw [found]
    simpa using congrArg String.toList empty
  · intro found
    exact ⟨[], found, rfl⟩

/-- A path is its steps, with an empty piece after them if it is empty or ends in a slash. -/
theorem pieces_eq_steps (path : Path) :
    path.pieces = steps path ∨ path.pieces = steps path ++ [""] := by
  unfold steps
  split
  · rename_i empty
    right
    obtain ⟨front, last⟩ := List.getLast?_eq_some_iff.mp empty
    simp [last]
  · exact Or.inl rfl

/-- A path written after a directory has the steps of the directory and then its own pieces. -/
theorem pieces_join (directory path : Path) (relative : path.isAbsolute = false) :
    (directory.join path).pieces = steps directory ++ path.pieces := by
  unfold Path.join
  have slash : "/".toList = ['/'] := rfl
  by_cases blank : directory.text = ""
  · have none : steps directory = [] := by
      simp [steps, Path.pieces, blank, Text.split]
    simp [relative, blank, none]
  · have nonempty : directory.text.toList ≠ [] := by simpa [String.toList_eq_nil_iff] using blank
    simp only [relative, Bool.false_eq_true, blank, or_self, ↓reduceIte]
    by_cases closed : directory.text.toList.getLast? = some '/'
    · obtain ⟨front, shape⟩ := List.getLast?_eq_some_iff.mp closed
      have last := (last_piece_empty_iff directory).mpr (Or.inr closed)
      have own : directory.pieces =
          (Text.split (· == '/') front).map String.ofList ++ [""] := by
        simp [Path.pieces, shape, split_append, Text.split]
      simp only [closed, ↓reduceIte, steps, last]
      rw [own, List.dropLast_concat]
      simp [Path.pieces, shape, split_append]
    · have last : directory.pieces.getLast? ≠ some "" := by
        rw [Ne, last_piece_empty_iff]
        simp [nonempty, closed]
      simp only [closed, ↓reduceIte, steps, last]
      simp [Path.pieces, slash, split_append]

/-- A relative path written after a directory starts where the directory's path starts. -/
theorem absolute_join (directory path : Path) (relative : path.isAbsolute = false) :
    (directory.join path).isAbsolute = directory.isAbsolute := by
  unfold Path.join
  by_cases blank : directory.text = ""
  · simpa [blank, Path.isAbsolute] using relative
  · have nonempty : directory.text.toList ≠ [] := by simpa [String.toList_eq_nil_iff] using blank
    simp only [relative, Bool.false_eq_true, blank, or_self, ↓reduceIte]
    obtain ⟨first, rest, shape⟩ := List.exists_cons_of_ne_nil nonempty
    split <;> simp [Path.isAbsolute, shape]

/-- Every character of a path but its slashes is in one of the pieces. -/
theorem mem_text_iff {path : Path} {c : Char} (plain : c ≠ '/') :
    c ∈ path.text.toList ↔ ∃ piece ∈ path.pieces, c ∈ piece.toList := by
  rw [← Text.join_split '/' path.text.toList, mem_join_iff plain]
  simp [Path.pieces]

theorem separator_not_mem_pieces {path : Path} {piece : String} (inside : piece ∈ path.pieces) :
    '/' ∉ piece.toList := by
  obtain ⟨field, among, rfl⟩ := List.mem_map.mp inside
  simpa using not_mem_of_mem_split among

/-- A path that is put together from pieces has these pieces. -/
theorem pieces_of_pieces {pieces : List String} (nonempty : pieces ≠ [])
    (proper : ∀ piece ∈ pieces, '/' ∉ piece.toList) : (Path.ofPieces pieces).pieces = pieces := by
  have fields := split_join '/' (pieces.map String.toList) (by simpa using nonempty)
    fun field inside => by
      obtain ⟨piece, among, rfl⟩ := List.mem_map.mp inside
      exact proper piece among
  simp only [Path.ofPieces, Path.pieces, String.toList_ofList, fields, List.map_map]
  exact List.map_id'' (fun piece => String.ofList_toList) pieces

/-- The pieces of a path that starts at the root. -/
theorem pieces_rooted {pieces : List String}
    (proper : ∀ piece ∈ pieces, '/' ∉ piece.toList) :
    (Path.rooted pieces).pieces = "" :: if pieces = [] then [""] else pieces := by
  have slash : "/".toList = ['/'] := rfl
  have rest : (Path.ofPieces pieces).pieces = if pieces = [] then [""] else pieces := by
    split
    · rename_i none
      simp [none, Path.ofPieces, Path.pieces, Text.join, Text.split]
    · rename_i nonempty
      exact pieces_of_pieces nonempty proper
  rw [← rest]
  simp [Path.rooted, Path.pieces, slash, Text.split]

/-- An absolute path starts with an empty piece that others follow. -/
theorem absolute_iff (path : Path) :
    path.isAbsolute = true ↔ ∃ rest, rest ≠ [] ∧ path.pieces = "" :: rest := by
  unfold Path.isAbsolute Path.pieces
  cases path.text.toList with
  | nil => simp [Text.split]
  | cons c text =>
    by_cases slash : c = '/'
    · subst slash
      simp [Text.split, Text.split_ne_nil]
    · cases fields : Text.split (· == '/') text with
      | nil => exact absurd fields (Text.split_ne_nil _ _)
      | cons field fields => simp [Text.split, slash, fields, ← String.toList_inj]

/-- What settling takes from the end of a path stays in the directory it is read in. -/
theorem settle_idle (pieces : List String) :
    ∃ idle, pieces = Path.settle pieces ++ idle ∧ ∀ piece ∈ idle, Path.isIdle piece = true := by
  refine ⟨(pieces.reverse.takeWhile Path.isIdle).reverse, ?_, ?_⟩
  · rw [Path.settle, ← List.reverse_append, List.takeWhile_append_dropWhile, List.reverse_reverse]
  · intro piece inside
    exact List.mem_takeWhile_imp (List.mem_reverse.mp inside)

private theorem last_of_settle {pieces : List String} {last : String}
    (found : (Path.settle pieces).getLast? = some last) : Path.isIdle last = false := by
  have kept := List.head?_dropWhile_not Path.isIdle pieces.reverse
  rw [Path.settle, List.getLast?_reverse] at found
  rw [found] at kept
  simpa using kept

private theorem steps_of_settled {pieces settled : List String} (path : Path)
    (own : path.pieces = pieces ++ Path.settle settled)
    (kept : Path.settle settled = [] → pieces.getLast? ≠ some "") : steps path = path.pieces := by
  unfold steps
  rw [if_neg]
  rw [own]
  cases shape : (Path.settle settled).getLast? with
  | none =>
    have none := List.getLast?_eq_none_iff.mp shape
    simpa [none] using kept none
  | some last =>
    have busy := last_of_settle shape
    rw [List.getLast?_append, shape]
    rintro ⟨⟩
    simp [Path.isIdle] at busy

/-- Pieces that do not all stay in one directory are those before the last step, and that step, but
for idle pieces before and after it. -/
private theorem cut_last_step {pieces : List String} (nonempty : Path.settle pieces ≠ []) :
    ∃ inner last outer,
      pieces = Path.settle (Path.settle pieces).dropLast ++ inner ++ last :: outer ∧ last ≠ "" ∧
      (∀ piece ∈ inner, Path.isIdle piece = true) ∧ ∀ piece ∈ outer, Path.isIdle piece = true := by
  obtain ⟨outer, whole, outerIdle⟩ := settle_idle pieces
  obtain ⟨last, settled⟩ : ∃ last, Path.settle pieces = (Path.settle pieces).dropLast ++ [last] :=
    ⟨_, (List.dropLast_concat_getLast nonempty).symm⟩
  have visible : last ≠ "" := by
    have busy : Path.isIdle last = false := last_of_settle (by rw [settled]; simp)
    rintro rfl
    simp [Path.isIdle] at busy
  obtain ⟨inner, body, innerIdle⟩ := settle_idle (Path.settle pieces).dropLast
  refine ⟨inner, last, outer, ?_, visible, innerIdle, outerIdle⟩
  calc
    pieces = Path.settle pieces ++ outer := whole
    _ = (Path.settle pieces).dropLast ++ [last] ++ outer := congrArg (· ++ outer) settled
    _ = Path.settle (Path.settle pieces).dropLast ++ inner ++ [last] ++ outer :=
      congrArg (· ++ [last] ++ outer) body
    _ = Path.settle (Path.settle pieces).dropLast ++ inner ++ last :: outer := by simp

/-- The steps of a path that is built of settled pieces below the root. -/
private theorem steps_of_rooted {pieces : List String}
    (proper : ∀ piece ∈ Path.settle pieces, '/' ∉ piece.toList) :
    steps (Path.rooted (Path.settle pieces)) = "" :: Path.settle pieces := by
  by_cases none : Path.settle pieces = []
  · simp [none, steps, @pieces_rooted []]
  · have rooted := pieces_rooted proper
    rw [if_neg none] at rooted
    rw [@steps_of_settled [""] _ _ rooted fun empty => absurd empty none, rooted]

/-- A path is its parent's steps and one more piece, but for idle pieces before and after it. -/
theorem pieces_of_parent {path parent : Path} (found : path.parent? = some parent) :
    (∃ inner last outer, path.pieces = steps parent ++ inner ++ last :: outer ∧ last ≠ "" ∧
      (∀ piece ∈ inner, Path.isIdle piece = true) ∧ ∀ piece ∈ outer, Path.isIdle piece = true) ∧
    parent.isAbsolute = path.isAbsolute := by
  unfold Path.parent? at found
  split at found
  · cases found
  · rename_i head tail shape
    have proper : ∀ piece ∈ head :: tail, '/' ∉ piece.toList := by
      rw [← shape]
      exact fun piece => separator_not_mem_pieces
    split at found
    · rename_i none
      obtain ⟨outer, whole, outerIdle⟩ := settle_idle tail
      split at found
      · cases found
      · rename_i named
        obtain rfl := Option.some.inj found
        refine ⟨⟨[], head, outer, ?_, named, by simp, outerIdle⟩, ?_⟩
        · rw [shape, whole, none]
          simp [steps, Path.pieces, Text.split]
        · rw [Bool.eq_iff_iff, absolute_iff, absolute_iff, shape]
          simp [named, Path.pieces, Text.split]
    · rename_i nonempty
      obtain ⟨inner, last, outer, chain, visible, innerIdle, outerIdle⟩ := cut_last_step nonempty
      have front : ∀ piece ∈ Path.settle (Path.settle tail).dropLast, '/' ∉ piece.toList :=
        fun piece inside => proper piece (by rw [chain]; simp [inside])
      split at found
      · rename_i root
        obtain rfl := Option.some.inj found
        have own := steps_of_rooted front
        refine ⟨⟨inner, last, outer, ?_, visible, innerIdle, outerIdle⟩, ?_⟩
        · rw [shape, own, root]
          exact congrArg ("" :: ·) chain
        · rw [Bool.eq_iff_iff, absolute_iff, absolute_iff, shape, pieces_rooted front]
          simp only [root, List.cons.injEq, true_and]
          refine ⟨fun _ => ⟨tail, by rw [chain]; simp, rfl⟩, fun _ => ⟨_, ?_, rfl⟩⟩
          split
          · simp
          · assumption
      · rename_i named
        obtain rfl := Option.some.inj found
        have pieces := @pieces_of_pieces (head :: Path.settle (Path.settle tail).dropLast)
          (by simp) fun piece inside => by
            rcases List.mem_cons.mp inside with rfl | inside
            · exact proper _ (by simp)
            · exact front piece inside
        have own := @steps_of_settled [head] _ _ pieces fun _ => by simpa using named
        refine ⟨⟨inner, last, outer, ?_, visible, innerIdle, outerIdle⟩, ?_⟩
        · rw [shape, own, pieces]
          exact congrArg (head :: ·) chain
        · rw [Bool.eq_iff_iff, absolute_iff, absolute_iff, shape, pieces]
          simp [named]

/-- The parent of an absolute path ends in a piece that leads on, if it is not the root. -/
theorem parent_named {path parent : Path} (found : path.parent? = some parent)
    (absolute : path.isAbsolute = true) {front : List String} {piece : String}
    (own : steps parent = "" :: (front ++ [piece])) : Path.isIdle piece = false := by
  obtain ⟨rest, -, rooted⟩ := (absolute_iff path).mp absolute
  have proper : ∀ piece ∈ rest, '/' ∉ piece.toList := fun piece inside =>
    separator_not_mem_pieces (rooted ▸ List.mem_cons_of_mem _ inside)
  unfold Path.parent? at found
  simp only [rooted, ↓reduceIte] at found
  split at found
  · cases found
  · rename_i nonempty
    obtain ⟨inner, last, outer, chain, -⟩ := cut_last_step nonempty
    obtain rfl := Option.some.inj found
    have settled := @steps_of_rooted (Path.settle rest).dropLast fun piece inside =>
      proper piece (by rw [chain]; simp [inside])
    refine @last_of_settle (Path.settle rest).dropLast piece ?_
    rw [(List.cons.inj (settled.symm.trans own)).2, List.getLast?_concat]

/-- A path without a parent stays in the directory it is read in. -/
theorem idle_of_no_parent {path : Path} (none : path.parent? = none) :
    ∀ piece ∈ path.pieces, Path.isIdle piece = true := by
  unfold Path.parent? at none
  split at none
  · rename_i shape
    exact absurd shape (pieces_ne_nil path)
  · rename_i head tail shape
    obtain ⟨outer, whole, outerIdle⟩ := settle_idle tail
    split at none
    · rename_i empty
      split at none
      · rename_i root
        rw [empty, List.nil_append] at whole
        subst whole root
        intro piece inside
        rw [shape] at inside
        rcases List.mem_cons.mp inside with rfl | inside
        · rfl
        · exact outerIdle piece inside
      · cases none
    · split at none <;> cases none

end ContractBuild.PathPieces
