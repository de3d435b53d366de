import ContractBuild.Text.Basic

/-! Paths as they are written. A path keeps its spelling, so joining and taking the parent give
texts that a reader recognizes; where a path leads is decided by a file tree. -/
namespace ContractBuild

/-- The spelling of a path. -/
structure Path where
  text : String
  deriving DecidableEq, Inhabited

namespace Path

/-- The pieces between the slashes of a path; an absolute path starts with an empty piece. -/
def pieces (path : Path) : List String :=
  (Text.split (· == '/') path.text.toList).map String.ofList

/-- The path whose pieces are given. -/
def ofPieces (pieces : List String) : Path :=
  ⟨String.ofList (Text.join ['/'] (pieces.map String.toList))⟩

/-- Whether a path starts at the root. -/
def isAbsolute (path : Path) : Bool := path.text.toList.head? == some '/'

/-- A path written after a directory. An absolute path replaces the directory. -/
def join (directory path : Path) : Path :=
  if path.isAbsolute ∨ directory.text = "" then path
  else if directory.text.toList.getLast? = some '/' then ⟨directory.text ++ path.text⟩
  else ⟨directory.text ++ "/" ++ path.text⟩

/-- A piece that stays in the directory it is read in. -/
def isIdle (piece : String) : Bool := piece == "" || piece == "."

/-- The pieces without the idle ones at the end. -/
def settle (pieces : List String) : List String := (pieces.reverse.dropWhile isIdle).reverse

/-- The path that starts at the root and goes on with these pieces. -/
def rooted (pieces : List String) : Path := ⟨"/" ++ (ofPieces pieces).text⟩

/-- The path without its last piece. The root and the empty path have no parent; a path of one piece
has the empty path for its parent. Idle pieces do not count, except a dot that starts the path. -/
def parent? (path : Path) : Option Path :=
  match path.pieces with
  | [] => none
  | head :: tail =>
    if settle tail = [] then if head = "" then none else some ⟨""⟩
    else if head = "" then some (rooted (settle (settle tail).dropLast))
    else some (ofPieces (head :: settle (settle tail).dropLast))

/-- The length of pieces, each counted with a slash. -/
def weight : (pieces : List String) → Nat
  | [] => 0
  | piece :: pieces => piece.toList.length + 1 + weight pieces

theorem weight_append (a b : List String) : weight (a ++ b) = weight a + weight b := by
  induction a with
  | nil => simp [weight]
  | cons piece a ih => simp only [List.cons_append, weight, ih]; omega

theorem length_join (pieces : List String) (some : pieces ≠ []) :
    (Text.join ['/'] (pieces.map String.toList)).length + 1 = weight pieces := by
  match pieces, some with
  | [piece], _ => simp [Text.join, weight]
  | piece :: next :: rest, _ =>
    have ih := length_join (next :: rest) (by simp)
    simp only [List.map_cons, Text.join, List.length_append, List.length_singleton] at *
    simp only [weight] at *
    omega

theorem weight_pieces (path : Path) : weight path.pieces = path.text.toList.length + 1 := by
  have back := Text.join_split '/' path.text.toList
  have some : path.pieces ≠ [] := by
    simpa [pieces] using Text.split_ne_nil (· == '/') path.text.toList
  rw [← length_join _ some]
  simp only [pieces, List.map_map]
  have same : (String.toList ∘ String.ofList) = id := by
    funext text
    simp
  rw [same, List.map_id, back]

theorem settle_split (pieces : List String) : ∃ idle, pieces = settle pieces ++ idle := by
  refine ⟨(pieces.reverse.takeWhile isIdle).reverse, ?_⟩
  rw [settle, ← List.reverse_append, List.takeWhile_append_dropWhile, List.reverse_reverse]

theorem weight_settle (pieces : List String) : weight (settle pieces) ≤ weight pieces := by
  obtain ⟨idle, whole⟩ := settle_split pieces
  have := weight_append (settle pieces) idle
  rw [← whole] at this
  omega

theorem weight_dropLast (pieces : List String) (some : pieces ≠ []) :
    weight pieces.dropLast < weight pieces := by
  have := weight_append pieces.dropLast [pieces.getLast some]
  rw [List.dropLast_concat_getLast] at this
  simp only [weight] at this ⊢
  omega

theorem weight_settled (pieces : List String) (some : settle pieces ≠ []) :
    2 ≤ weight (settle pieces) := by
  have kept := List.head?_dropWhile_not isIdle pieces.reverse
  cases shape : pieces.reverse.dropWhile isIdle with
  | nil => simp [settle, shape] at some
  | cons last rest =>
    rw [shape] at kept
    simp only [List.head?_cons] at kept
    have : last.toList ≠ [] := by
      intro none
      have : last = "" := by rw [← String.ofList_toList (s := last), none]
      simp [this, isIdle] at kept
    have := List.length_pos_iff.mpr this
    simp only [settle, shape, List.reverse_cons, weight_append]
    simp only [weight]
    omega

/-- A parent is spelled with fewer characters than the path. -/
theorem parent?_shorter {path parent : Path} (found : path.parent? = some parent) :
    parent.text.toList.length < path.text.toList.length := by
  have whole := weight_pieces path
  unfold parent? at found
  split at found
  · simp at found
  · rename_i head tail shape
    rw [shape] at whole
    have top : weight (head :: tail) = head.toList.length + 1 + weight tail := by
      simp [weight]
    have settled := weight_settle tail
    have empty : "".toList.length = 0 := rfl
    split at found
    · split at found
      · simp at found
      · rename_i proper
        simp only [Option.some.injEq] at found
        subst found
        have : head.toList ≠ [] := by
          intro none
          apply proper
          rw [← String.ofList_toList (s := head), none]
        have := List.length_pos_iff.mpr this
        simp only
        omega
    · rename_i kept
      have body := weight_settle (settle tail).dropLast
      have shorter := weight_dropLast (settle tail) kept
      have proper := weight_settled tail kept
      split at found
      · rename_i root
        simp only [Option.some.injEq] at found
        subst found
        simp only [rooted, ofPieces, String.toList_append, String.toList_ofList,
          List.length_append]
        have slash : "/".toList.length = 1 := rfl
        subst root
        by_cases none : settle (settle tail).dropLast = []
        · simp only [none, List.map_nil, Text.join, List.length_nil]
          omega
        · have size := length_join _ none
          omega
      · simp only [Option.some.injEq] at found
        subst found
        simp only [ofPieces, String.toList_ofList]
        have size := length_join (head :: settle (settle tail).dropLast) (by simp)
        have again : weight (head :: settle (settle tail).dropLast) =
            head.toList.length + 1 + weight (settle (settle tail).dropLast) := by
          simp [weight]
        omega

/-- The directory that a path is in: its parent, or the working directory if no parent is
written. -/
def directory (path : Path) : Path :=
  match path.parent? with
  | some parent => if parent.text = "" then ⟨"."⟩ else parent
  | none => ⟨"."⟩

/-- The name that a path ends in. A path that ends in a step to its own or its parent directory has
none. -/
def fileName? (path : Path) : Option String :=
  match path.pieces with
  | [] => none
  | head :: tail =>
    match (settle tail).getLast? with
    | some name => if name = ".." then none else some name
    | none => if isIdle head ∨ head = ".." then none else some head

/-- What follows the last dot of a file name. A dot that starts the name begins no extension. -/
def extension? (path : Path) : Option String :=
  match path.fileName? with
  | none => none
  | some name =>
    let reversed := name.toList.reverse
    match reversed.dropWhile (· != '.') with
    | [] => none
    | [_] => none
    | _ :: _ :: _ => some (String.ofList (reversed.takeWhile (· != '.')).reverse)

end Path

end ContractBuild
