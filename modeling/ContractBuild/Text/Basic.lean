import ContractBuild.Text.Blank

/-! Texts as lists of characters: trimming, cutting at a marker, splitting into fields and lines,
and replacing every occurrence of one text by another. -/
namespace ContractBuild.Text

/-- The text without the blanks at its end. -/
def trimEnd (text : List Char) : List Char := (text.reverse.dropWhile isBlank).reverse

/-- The text without the blanks around it. -/
def trim (text : List Char) : List Char := trimEnd (text.dropWhile isBlank)

/-- What follows `head` at the start of a text, if the text starts with it. -/
def after? : (head text : List Char) → Option (List Char)
  | [], text => some text
  | _ :: _, [] => none
  | h :: head, c :: text => if h = c then after? head text else none

/-- The text before the first occurrence of `marker` and the text after it. -/
def cut? (marker : List Char) : List Char → Option (List Char × List Char)
  | [] => (after? marker []).map ([], ·)
  | c :: text =>
    match after? marker (c :: text) with
    | some rest => some ([], rest)
    | none => (cut? marker text).map fun (before, rest) => (c :: before, rest)

/-- Whether `part` occurs in a text. -/
def occurs (part text : List Char) : Bool := (cut? part text).isSome

/-- The fields between the characters that separate them; there is one more field than
separators. -/
def split (separates : Char → Bool) : List Char → List (List Char)
  | [] => [[]]
  | c :: text =>
    if separates c then [] :: split separates text
    else
      match split separates text with
      | [] => [[c]]
      | field :: fields => (c :: field) :: fields

/-- The fields between two ends of a text that hold any character. -/
def words (separates : Char → Bool) (text : List Char) : List (List Char) :=
  (split separates text).filter fun field => !field.isEmpty

/-- The fields with a separator between each two. -/
def join (separator : List Char) : List (List Char) → List Char
  | [] => []
  | [field] => field
  | field :: next :: fields => field ++ separator ++ join separator (next :: fields)

/-- The lines of a text, each without the newline that ends it and a carriage return before that.
A newline at the end of the text starts no further line. -/
def lines (text : List Char) : List (List Char) :=
  let pieces := split (· == '\n') text
  pieces.dropLast.map bare ++ (pieces.getLast?.filter fun piece => !piece.isEmpty).toList
where
  bare (line : List Char) : List Char :=
    if line.getLast? = some '\r' then line.dropLast else line

theorem split_ne_nil (separates : Char → Bool) (text : List Char) : split separates text ≠ [] := by
  cases text with
  | nil => simp [split]
  | cons c text =>
    simp only [split]
    split
    · simp
    · split <;> simp

/-- Splitting at a character and joining with it again loses nothing. -/
theorem join_split (separator : Char) (text : List Char) :
    join [separator] (split (· == separator) text) = text := by
  induction text with
  | nil => rfl
  | cons c text ih =>
    simp only [split]
    split
    · rename_i same
      cases fields : split (· == separator) text with
      | nil => exact absurd fields (split_ne_nil _ _)
      | cons field fields =>
        rw [fields] at ih
        simp only [join, List.nil_append, List.singleton_append, ih]
        simp_all
    · split
      · rename_i none
        exact absurd none (split_ne_nil _ _)
      · rename_i field fields shape
        rw [shape] at ih
        cases fields with
        | nil => simpa [join] using congrArg (c :: ·) ih
        | cons next fields => simpa [join] using congrArg (c :: ·) ih

theorem after?_length {head text rest : List Char} (found : after? head text = some rest) :
    text.length = head.length + rest.length := by
  induction head generalizing text with
  | nil => simp_all [after?]
  | cons h head ih =>
    cases text with
    | nil => simp [after?] at found
    | cons c text =>
      simp only [after?] at found
      split at found
      · have := ih found
        simp only [List.length_cons]
        omega
      · simp at found

/-- The text with every occurrence of `old` replaced, from left to right; an occurrence that
overlaps one already replaced stays. -/
def replaceFrom (oldHead : Char) (oldTail new : List Char) (text : List Char) : List Char :=
  match text with
  | [] => []
  | c :: rest =>
    match _found : after? (oldHead :: oldTail) (c :: rest) with
    | some beyond => new ++ replaceFrom oldHead oldTail new beyond
    | none => c :: replaceFrom oldHead oldTail new rest
termination_by text.length
decreasing_by
  · have := after?_length _found
    simp only [List.length_cons] at *
    omega
  · simp

/-- The text with every occurrence of `old` replaced by `new`. The empty text occurs before every
character and at the end. -/
def replace (old new text : List Char) : List Char :=
  match old with
  | head :: tail => replaceFrom head tail new text
  | [] => new ++ text.flatMap fun c => c :: new

end ContractBuild.Text
