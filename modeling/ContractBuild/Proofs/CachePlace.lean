import ContractBuild.Cache.Basic
import ContractBuild.Proofs.ByteForms
import ContractBuild.Proofs.PathPieces
import ContractBuild.Proofs.PathRoute

/-! Where a cache keeps its files. The root path of a cache leads to one place as long as the links
on the way stay, and in that place, where there are no links, every artifact has a location of its
own. -/
namespace ContractBuild.CachePlace
open ByteForms FileTree PathPieces PathRoute PathWalk

/-- A name that stands for one entry of a directory, whatever its length. -/
structure Plain (name : String) : Prop where
  busy : Path.isIdle name = false
  inner : name ≠ ".."
  whole : '/' ∉ name.toList

instance (name : String) : Decidable (Plain name) :=
  decidable_of_iff (Path.isIdle name = false ∧ name ≠ ".." ∧ '/' ∉ name.toList)
    ⟨fun ⟨busy, inner, whole⟩ => ⟨busy, inner, whole⟩,
      fun plain => ⟨plain.busy, plain.inner, plain.whole⟩⟩

/-- Where a path starts. -/
def origin (w : Workspace) (path : Path) : Location := if path.isAbsolute then [] else w.here

/-- The root of a cache leads to a place, and is not itself a link to it. There are no links in the
place. -/
structure Placed (cache : Cache) (place : Location) (w : Workspace) : Prop where
  leads : route w.files true maxLinks (origin w cache.root) (steps cache.root) = some place
  unlinked : route w.files false maxLinks (origin w cache.root) cache.root.pieces = some place
  linkless : ∀ location target, place <+: location → w.files.get? location ≠ some (.link target)

/-- The location of an artifact. -/
def artifactPlace (place : Location) (digest : Digest) (name : String) : Location :=
  place ++ [digest.toHex, name]

section Names

private theorem digit_plain : ∀ n < 16, Text.hexDigit n ≠ '/' ∧ Text.hexDigit n ≠ '.' ∧
    Text.hexDigit n ≠ '\x00' ∧ (Text.hexDigit n).utf8Size = 1 := by decide

private theorem hex_plain {bytes : Bytes} {c : Char} (inside : c ∈ Text.hex bytes) :
    c ≠ '/' ∧ c ≠ '.' ∧ c ≠ '\x00' ∧ c.utf8Size = 1 := by
  obtain ⟨byte, -, inside⟩ := List.mem_flatMap.mp inside
  have below := byte.toNat_lt
  simp only [List.mem_cons, List.not_mem_nil, or_false] at inside
  rcases inside with rfl | rfl <;> exact digit_plain _ (by omega)

theorem to_hex_plain (digest : Digest) : Plain digest.toHex := by
  have chars : ∀ c ∈ digest.toHex.toList, c ≠ '/' ∧ c ≠ '.' := by
    intro c inside
    simp only [Digest.toHex, String.toList_ofList] at inside
    exact ⟨(hex_plain inside).1, (hex_plain inside).2.1⟩
  have nonempty : digest.toHex ≠ "" := by
    intro empty
    have none := congrArg String.toList empty
    simp only [Digest.toHex, String.toList_ofList] at none
    cases shape : digest.bytes with
    | nil => simpa [shape] using digest.length_eq
    | cons byte rest => simp [shape, Text.hex] at none
  have undotted : ∀ text : String, '.' ∈ text.toList → digest.toHex ≠ text := by
    rintro text dot rfl
    exact (chars '.' dot).2 rfl
  refine ⟨?_, undotted ".." (by decide), fun slash => (chars '/' slash).1 rfl⟩
  simp [Path.isIdle, nonempty, undotted "." (by decide)]

/-- A digest is written in as many bytes as it has digits. -/
theorem to_hex_bytes (digest : Digest) :
    Text.byteLength digest.toHex.toList = 64 ∧ '\x00' ∉ digest.toHex.toList := by
  have each : ∀ bytes : Bytes, Text.byteLength (Text.hex bytes) = 2 * bytes.length := by
    intro bytes
    induction bytes with
    | nil => rfl
    | cons byte bytes ih =>
      have below := byte.toNat_lt
      have high := (digit_plain (byte.toNat / 16) (by omega)).2.2.2
      have low := (digit_plain (byte.toNat % 16) (by omega)).2.2.2
      simp only [Text.hex, List.flatMap_cons, List.cons_append, List.nil_append, Text.byteLength,
        high, low] at ih ⊢
      simp only [ih, List.length_cons]
      omega
  simp only [Digest.toHex, String.toList_ofList]
  refine ⟨by rw [each, digest.length_eq], fun zero => ?_⟩
  exact (hex_plain zero).2.2.1 rfl

theorem to_hex_undotted (digest : Digest) : '.' ∉ digest.toHex.toList := by
  intro dot
  simp only [Digest.toHex, String.toList_ofList] at dot
  exact (hex_plain dot).2.1 rfl

theorem to_hex_is_name (digest : Digest) : IsName digest.toHex where
  busy := (to_hex_plain digest).busy
  inner := (to_hex_plain digest).inner
  short := by
    rw [(to_hex_bytes digest).1]
    decide

private theorem decimal_plain (n : Nat) : '/' ∉ Nat.toDigits 10 n := by
  intro inside
  have digit : '/'.isDigit = true := Nat.isDigit_of_mem_toDigits (by decide) (by decide) inside
  exact absurd digit (by decide)

/-- The name of a temporary file is plain, and is not the name that the file is to have. -/
theorem temporary_plain {name : String} (plain : Plain name) (process issued : Nat) :
    Plain s!".{name}.{process}.{issued}.tmp" ∧ s!".{name}.{process}.{issued}.tmp" ≠ name := by
  have chars : s!".{name}.{process}.{issued}.tmp".toList = '.' :: (name.toList ++ '.' ::
      ((toString process).toList ++ '.' :: ((toString issued).toList ++ ".tmp".toList))) := by
    simp [toString]
  have long : name.toList.length + 4 < s!".{name}.{process}.{issued}.tmp".toList.length := by
    have tail : ".tmp".toList.length = 4 := by decide
    simp only [chars, List.length_cons, List.length_append, tail]
    omega
  have different : ∀ text : String, text.toList.length ≤ name.toList.length + 4 →
      s!".{name}.{process}.{issued}.tmp" ≠ text := by
    rintro text short rfl
    omega
  refine ⟨⟨?_, different ".." (by simp), ?_⟩, different name (by omega)⟩
  · have nonempty := different "" (by simp)
    have undotted := different "." (by simp)
    simp only [Path.isIdle, Bool.or_eq_false_iff, beq_eq_false_iff_ne]
    exact ⟨nonempty, undotted⟩
  · rw [chars]
    simp [plain.whole, decimal_plain]

theorem result_plain : Plain Cache.resultName := by decide

theorem sources_plain : Plain Cache.sourcesName := by decide

theorem plain_relative {name : String} (plain : Plain name) :
    (Path.mk name).isAbsolute = false := by
  cases shape : name.toList with
  | nil => simp [Path.isAbsolute, shape]
  | cons c rest =>
    have : c ≠ '/' := by
      rintro rfl
      exact plain.whole (by simp [shape])
    simp [Path.isAbsolute, shape, this]

theorem plain_pieces {name : String} (plain : Plain name) : (Path.mk name).pieces = [name] := by
  simp [Path.pieces, split_of_not_mem plain.whole]

theorem plain_visible {name : String} (plain : Plain name) : name ≠ "" := by
  rintro rfl
  have := plain.busy
  simp [Path.isIdle] at this

theorem steps_join {name : String} (plain : Plain name) (directory : Path) :
    steps (directory.join ⟨name⟩) = steps directory ++ [name] := by
  have pieces := pieces_join directory ⟨name⟩ (plain_relative plain)
  rw [plain_pieces plain] at pieces
  rw [steps, pieces]
  simp [plain_visible plain]

theorem settle_concat {name : String} (busy : Path.isIdle name = false) (pieces : List String) :
    Path.settle (pieces ++ [name]) = pieces ++ [name] := by
  simp [Path.settle, busy]

/-- The parent of a name in a directory is the directory as it is spelled, if its spelling has no idle
pieces at its end. -/
theorem parent_of_join {name head : String} {tail : List String} (plain : Plain name)
    {directory : Path} (pieces : directory.pieces = head :: tail) (relative : head ≠ "")
    (own : steps directory = directory.pieces) (settled : Path.settle tail = tail) :
    (directory.join ⟨name⟩).parent? = some directory := by
  have joined : (directory.join ⟨name⟩).pieces = head :: (tail ++ [name]) := by
    rw [pieces_join _ _ (plain_relative plain), plain_pieces plain, own, pieces, List.cons_append]
  have back : Path.ofPieces directory.pieces = directory := by
    simp [Path.ofPieces, Path.pieces, Function.comp_def, Text.join_split]
  simp only [Path.parent?, joined, settle_concat plain.busy, List.append_eq_nil_iff,
    List.cons_ne_self, and_false, if_false, relative, List.dropLast_concat, settled, ← pieces, back]

/-- The name of a content is plain. -/
theorem file_name_plain (digest : Digest) (language : Language) :
    Plain (digest.fileName language) := by
  have long : ∀ text : String, text.toList.length ≤ 2 → digest.fileName language ≠ text := by
    rintro text short rfl
    have nonempty : digest.toHex.toList ≠ [] := by
      simpa [String.toList_eq_nil_iff] using plain_visible (to_hex_plain digest)
    have first := List.length_pos_iff.mpr nonempty
    have last : language.extension.toList.length = 3 := by cases language; decide
    have dot : ".".toList.length = 1 := by decide
    simp only [Digest.fileName, String.toList_append, List.length_append, last, dot] at short
    omega
  refine ⟨?_, long ".." (by decide), ?_⟩
  · simp [Path.isIdle, long "" (by decide), long "." (by decide)]
  · have tail : '/' ∉ language.extension.toList := by cases language; decide
    have dot : '/' ∉ ".".toList := by decide
    simp only [Digest.fileName, String.toList_append, List.mem_append]
    rintro ((inside | inside) | inside)
    · exact (to_hex_plain digest).whole inside
    · exact dot inside
    · exact tail inside

/-- The path that goes on with names below a path. -/
def pathBelow (path : Path) (names : List String) : Path :=
  names.foldl (fun path name => path.join ⟨name⟩) path

theorem below_concat (path : Path) (names : List String) (name : String) :
    (pathBelow path names).join ⟨name⟩ = pathBelow path (names ++ [name]) := by
  simp [pathBelow]

theorem below_absolute {names : List String} (plain : ∀ name ∈ names, Plain name) (path : Path) :
    (pathBelow path names).isAbsolute = path.isAbsolute := by
  induction names generalizing path with
  | nil => rfl
  | cons name names ih =>
    have relative := plain_relative (plain name (by simp))
    rw [pathBelow, List.foldl_cons]
    exact (ih (fun other inside => plain other (by simp [inside])) _).trans
      (absolute_join _ _ relative)

theorem steps_below {names : List String} (plain : ∀ name ∈ names, Plain name)
    (path : Path) : steps (pathBelow path names) = steps path ++ names := by
  induction names generalizing path with
  | nil => simp [pathBelow]
  | cons name names ih =>
    have below := ih (fun other inside => plain other (by simp [inside])) (path.join ⟨name⟩)
    rw [steps_join (plain name (by simp)), List.append_assoc] at below
    exact below

/-- The path below another has its steps and the names. -/
theorem below_pieces {names : List String} (nonempty : names ≠ [])
    (plain : ∀ name ∈ names, Plain name) (path : Path) :
    (pathBelow path names).pieces = steps path ++ names := by
  obtain ⟨front, last, rfl⟩ := (List.eq_nil_or_concat' names).resolve_left nonempty
  have lastPlain := plain last (by simp)
  have before : steps (pathBelow path front) = steps path ++ front :=
    steps_below (fun name inside => plain name (by simp [inside])) path
  rw [pathBelow, List.foldl_append, List.foldl_cons, List.foldl_nil,
    pieces_join _ _ (plain_relative lastPlain), plain_pieces lastPlain, ← List.append_assoc, ← before]
  rfl

private theorem accepted_of_join {directory path : Path} (relative : path.isAbsolute = false)
    (visible : directory.text ≠ "") (accepted : Accepted (directory.join path)) :
    Accepted directory := by
  obtain ⟨whole, -, short⟩ := accepted
  simp only [Path.join, relative, visible, or_self, Bool.false_eq_true, ↓reduceIte] at whole short
  split at whole
  · rename_i closed
    simp only [closed, ↓reduceIte, String.toList_append, byte_length_append] at short
    exact ⟨fun zero => whole (by simp [zero]), visible, by omega⟩
  · rename_i unclosed
    simp only [unclosed, ↓reduceIte, String.toList_append, byte_length_append] at short
    exact ⟨fun zero => whole (by simp [zero]), visible, by omega⟩

/-- The system takes the text of a path if it takes that of a path below it. -/
theorem accepted_of_below {names : List String} (plain : ∀ name ∈ names, Plain name) {path : Path}
    (visible : path.text ≠ "") (accepted : Accepted (pathBelow path names)) : Accepted path := by
  induction names generalizing path with
  | nil => exact accepted
  | cons name names ih =>
    have relative := plain_relative (plain name (by simp))
    refine accepted_of_join relative visible
      (ih (fun other inside => plain other (by simp [inside])) ?_ accepted)
    intro blank
    simp only [Path.join, relative, visible, or_self, Bool.false_eq_true, ↓reduceIte] at blank
    split at blank <;> simp [visible] at blank

theorem directory_plain (digest : Digest) : ∀ name ∈ [digest.toHex], Plain name := by
  simpa using to_hex_plain digest

theorem artifact_plain (digest : Digest) {name : String} (plain : Plain name) :
    ∀ other ∈ [digest.toHex, name], Plain other := by
  simpa using ⟨to_hex_plain digest, plain⟩

/-- The path of a digest's directory is the root's and the digits. -/
theorem directory_pieces (cache : Cache) (digest : Digest) :
    (cache.directory digest).pieces = steps cache.root ++ [digest.toHex] ∧
      (cache.directory digest).isAbsolute = cache.root.isAbsolute :=
  ⟨below_pieces (by simp) (directory_plain digest) cache.root,
    below_absolute (directory_plain digest) cache.root⟩

/-- The path of an artifact is that of its digest's directory and its name. -/
theorem file_pieces (cache : Cache) (digest : Digest) {name : String} (plain : Plain name) :
    (cache.file digest name).pieces = steps cache.root ++ [digest.toHex, name] ∧
      (cache.file digest name).isAbsolute = cache.root.isAbsolute :=
  ⟨below_pieces (by simp) (artifact_plain digest plain) cache.root,
    below_absolute (artifact_plain digest plain) cache.root⟩

/-- The directory of the sources is in the directory of their digest, as this is spelled. -/
theorem sources_parent {cache : Cache} {head : String} {tail : List String} (digest : Digest)
    (pieces : steps cache.root = head :: tail) (relative : head ≠ "") :
    (cache.sources digest).parent? = some (cache.directory digest) := by
  have hexPlain := to_hex_plain digest
  have own : (cache.directory digest).pieces = head :: (tail ++ [digest.toHex]) := by
    rw [(directory_pieces cache digest).1, pieces, List.cons_append]
  apply parent_of_join sources_plain own relative
  · rw [own, ← List.cons_append, ← pieces]
    exact steps_join hexPlain _
  · exact settle_concat hexPlain.busy tail

end Names

section Find
variable {cache : Cache} {place here location : Location} {w : Workspace} {tree : FileTree}
  {follow : Bool} {links : Nat} {node : Node} {name : String} {spot : Spot} {digest : Digest}

/-- What looking for a name in a directory without links comes to: the location of the name there,
which is free or holds what was found. -/
inductive AtChild (tree : FileTree) (location : Location) : Spot → Prop where
  | free (absent : tree.get? location = none) : AtChild tree location (.free location false)
  | taken {node : Node} (there : tree.get? location = some node) :
      AtChild tree location (.taken location node)

theorem name_of_walk (plain : Plain name) {rest : List String}
    (walked : walk tree follow links place node (name :: rest) = .ok spot) :
    node = .directory ∧ IsName name := by
  have inside : node = .directory := by
    by_contra outside
    rw [walk_outside outside] at walked
    cases walked
  refine ⟨inside, plain.busy, plain.inner, Nat.not_lt.mp fun long => ?_⟩
  rw [inside, walk_long plain.busy plain.inner long] at walked
  cases walked

private theorem walk_child (plain : Plain name)
    (linkless : ∀ target, tree.get? (place ++ [name]) ≠ some (.link target))
    (walked : walk tree follow links place node [name] = .ok spot) :
    AtChild tree (place ++ [name]) spot := by
  obtain ⟨rfl, isName⟩ := name_of_walk plain walked
  cases there : tree.get? (place ++ [name]) with
  | none =>
    rw [walk_absent isName there] at walked
    obtain rfl := Except.ok.inj walked
    exact .free there
  | some found =>
    have solid : ∀ target, found ≠ .link target := by
      rintro target rfl
      exact linkless target there
    rw [walk_found isName there solid, walk] at walked
    obtain rfl := Except.ok.inj walked
    exact .taken there

private theorem walk_down (plain : Plain name)
    (linkless : ∀ target, tree.get? (place ++ [name]) ≠ some (.link target))
    {rest : List String} (on : GoesOn rest)
    (walked : walk tree follow links place node (name :: rest) = .ok spot) :
    ∃ found, walk tree follow links (place ++ [name]) found rest = .ok spot := by
  obtain ⟨rfl, isName⟩ := name_of_walk plain walked
  cases there : tree.get? (place ++ [name]) with
  | none =>
    obtain ⟨piece, inside, proper⟩ := on
    rw [walk_absent isName there, if_neg ?_] at walked
    · cases walked
    · intro final
      exact proper (by simpa using List.all_eq_true.mp final piece inside)
  | some found =>
    have solid : ∀ target, found ≠ .link target := by
      rintro target rfl
      exact linkless target there
    rw [walk_found isName there solid] at walked
    exact ⟨found, walked⟩

private theorem walk_names {names : List String} (nonempty : names ≠ [])
    (plain : ∀ name ∈ names, Plain name)
    (linkless : ∀ location target, place <+: location → tree.get? location ≠ some (.link target))
    (walked : walk tree follow links place node names = .ok spot) :
    AtChild tree (place ++ names) spot := by
  induction names generalizing place node with
  | nil => exact absurd rfl nonempty
  | cons name rest ih =>
    have namePlain := plain name (by simp)
    have own := fun target => linkless (place ++ [name]) target (List.prefix_append ..)
    cases rest with
    | nil => exact walk_child namePlain own walked
    | cons next rest =>
      have on : GoesOn (next :: rest) := ⟨next, by simp, plain_visible (plain next (by simp))⟩
      obtain ⟨found, walked⟩ := walk_down namePlain own on walked
      have child := ih (by simp) (fun other inside => plain other (List.mem_cons_of_mem _ inside))
        (fun location target inside => linkless location target
          ((List.prefix_append ..).trans inside)) walked
      rw [List.append_assoc] at child
      exact child

/-- A path below the root of a cache that comes to anything comes to the location that its names
lead to. -/
theorem find_below (placed : Placed cache place w) {names : List String} (nonempty : names ≠ [])
    (plain : ∀ name ∈ names, Plain name)
    (found : w.files.find follow w.here (pathBelow cache.root names) = .ok spot) :
    AtChild w.files (place ++ names) spot := by
  have walked := walk_of_find found
  rw [below_pieces nonempty plain, below_absolute plain] at walked
  have walked : walk w.files follow maxLinks (origin w cache.root) .directory
      (steps cache.root ++ names) = .ok spot := walked
  obtain ⟨name, inside⟩ := List.exists_mem_of_ne_nil names nonempty
  have on : GoesOn names := ⟨name, inside, plain_visible (plain name inside)⟩
  rcases walk_append w.files maxLinks (origin w cache.root) .directory (steps cache.root) with
    ⟨reached, node, left, -, rooted, onward⟩ | ⟨-, fails⟩
  · obtain rfl := Option.some.inj ((route_of_walk rooted).symm.trans placed.leads)
    rw [onward follow _ (Or.inl on)] at walked
    exact walk_names nonempty plain placed.linkless walked
  · obtain ⟨error, failed⟩ := fails follow names on
    rw [failed] at walked
    cases walked

/-- A directory that is found below the root of a cache is in the root, which is a directory, and in
the entry of the root that its first name stands for, which is one as well. -/
theorem lookup_on_the_way (placed : Placed cache place w) (visible : cache.root.text ≠ "")
    {names : List String} (plain : ∀ other ∈ name :: names, Plain other)
    (looked : w.files.lookup w.here (pathBelow cache.root (name :: names)) =
      .ok (location, .directory)) :
    w.files.lookup w.here cache.root = .ok (place, .directory) ∧
      w.files.get? (place ++ [name]) = some .directory := by
  have namePlain := plain name (by simp)
  obtain ⟨accepted, walked⟩ := lookup_ok_iff.mp looked
  rw [below_pieces (by simp) plain, below_absolute plain] at walked
  have walked : walk w.files true maxLinks (origin w cache.root) .directory
      (steps cache.root ++ name :: names) = .ok (.taken location .directory) := walked
  have on : GoesOn (name :: names) := ⟨name, by simp, plain_visible namePlain⟩
  rcases walk_append w.files maxLinks (origin w cache.root) .directory (steps cache.root) with
    ⟨reached, found, left, -, rooted, onward⟩ | ⟨-, fails⟩
  · obtain rfl := Option.some.inj ((route_of_walk rooted).symm.trans placed.leads)
    rw [onward true _ (Or.inl on)] at walked
    obtain ⟨rfl, isName⟩ := name_of_walk namePlain walked
    refine ⟨lookup_ok_iff.mpr ⟨accepted_of_below plain visible accepted, ?_⟩, ?_⟩
    · change walk w.files true maxLinks (origin w cache.root) .directory cache.root.pieces = _
      rcases pieces_eq_steps cache.root with own | own
      · rw [own, rooted]
      · rw [own, onward true [""] (Or.inr rfl), walk_idle (by decide), walk]
    · cases there : w.files.get? (reached ++ [name]) with
      | none =>
        rw [walk_absent isName there] at walked
        split at walked <;> cases walked
      | some found =>
        have solid : ∀ target, found ≠ .link target := by
          rintro target rfl
          exact placed.linkless _ target (List.prefix_append ..) there
        rw [walk_found isName there solid] at walked
        by_contra inner
        cases names with
        | nil =>
          rw [walk] at walked
          obtain ⟨-, rfl⟩ := Spot.taken.inj (Except.ok.inj walked)
          exact inner rfl
        | cons next names =>
          rw [walk_outside (by simpa using inner)] at walked
          cases walked
  · obtain ⟨error, failed⟩ := fails true _ on
    rw [failed] at walked
    cases walked

/-- A path of an artifact that comes to anything comes to the location of the artifact. -/
theorem find_in_cache (placed : Placed cache place w) (plain : Plain name)
    (found : w.files.find follow w.here (cache.file digest name) = .ok spot) :
    AtChild w.files (artifactPlace place digest name) spot :=
  find_below placed (by simp) (artifact_plain digest plain) found

/-- What is read below the root of a cache is in the location that the names lead to. -/
theorem read_below (placed : Placed cache place w) {names : List String} (nonempty : names ≠ [])
    (plain : ∀ name ∈ names, Plain name) {content : Bytes}
    (read : w.read (pathBelow cache.root names) = .ok content) :
    ∃ executable, w.files.lookup w.here (pathBelow cache.root names) =
      .ok (place ++ names, .file content executable) := by
  unfold Workspace.read FileTree.read at read
  split at read
  · rename_i location content' executable looked
    obtain rfl := Except.ok.inj read
    cases find_below placed nonempty plain (find_of_lookup looked) with
    | taken there => exact ⟨executable, looked⟩
  · cases read
  · cases read

/-- What is read as an artifact is in its location. -/
theorem read_in_cache (placed : Placed cache place w) (plain : Plain name) {content : Bytes}
    (read : w.read (cache.file digest name) = .ok content) :
    contentAt? w.files (artifactPlace place digest name) = some content := by
  obtain ⟨executable, looked⟩ := read_below placed (by simp) (artifact_plain digest plain) read
  exact content_of_file (get?_of_lookup looked)

theorem read_artifact_of_read {content : Bytes}
    (read : w.read (cache.file digest name) = .ok content) :
    cache.readArtifact? w digest name = Artifact.decode? content := by
  unfold Cache.readArtifact?
  rw [read]

theorem unread_artifact {error : FileError}
    (unread : w.read (cache.file digest name) = .error error) :
    cache.readArtifact? w digest name = none := by
  unfold Cache.readArtifact?
  rw [unread]

end Find

end ContractBuild.CachePlace
