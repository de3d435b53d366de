import ContractBuild.Shell.Machine
import ContractBuild.Shell.Read
import ContractBuild.Shell.Utility

/-! Expanding words: splitting values at separators, names that patterns stand for, shortened
values, and arithmetic. -/
namespace ContractBuild.Shell

namespace Run

/-- A part of an expanded word. -/
inductive Atom where
  | char (c : Char) (quoted : Bool)
  /-- The word is there, even if nothing else is in it. -/
  | present
  /-- The word ends here. -/
  | gap

/-- A text as it stands in a word. -/
def atoms (quoted : Bool) (text : Raw) : List Atom := text.map fun c => .char c quoted

/-- The characters that separate words in values. -/
def separators (m : Machine) : Raw :=
  ((m.bindings.find? fun entry => entry.1 = ['I', 'F', 'S']).map Prod.snd).getD [' ', '\t', '\n']

/-- Whether any number of a separator counts as one. -/
def isLoose (c : Char) : Bool := [' ', '\t', '\n'].contains c

/-- A value as it stands in a word: outside quotes it is split at separators. -/
def splitAtoms (m : Machine) (quoted : Bool) (text : Raw) : List Atom :=
  let marks := separators m
  text.flatMap fun c =>
    if quoted || !marks.contains c then [.char c quoted]
    else if isLoose c then [.gap]
    else [.present, .gap]

/-- The words that parts make up. -/
def fields (atoms : List Atom) : List (List PatternChar) :=
  let step (state : List (List PatternChar) × Option (List PatternChar)) (atom : Atom) :=
    match atom, state with
    | .gap, (done, some field) => (field.reverse :: done, none)
    | .gap, (done, none) => (done, none)
    | .present, (done, field) => (done, some (field.getD []))
    | .char c quoted, (done, field) => (done, some ((c, quoted) :: field.getD []))
  let (done, last) := atoms.foldl step ([], none)
  (match last with
    | some field => field.reverse :: done
    | none => done).reverse

/-- The names that a pattern stands for, or the pattern itself if there are none. -/
def namesOf (w : Workspace) (field : List PatternChar) : List Raw :=
  let own := [field.map Prod.fst]
  if ¬ isPattern field then own
  else
    let after := (field.reverse.takeWhile fun c => c.1 != '/').reverse
    let above := field.take (field.length - after.length)
    let directory := if above = [] then ['.'] else above.map Prod.fst
    let dotted := (after.head?.map Prod.fst) == some '.'
    match w.files.listDirectory w.here (Utility.path directory) with
    | .ok names =>
      let found := (names.map Raw.ofString).filter fun name =>
        matchesName after name && (dotted || name.head? != some '.')
      if found = [] then own else (Utility.sorted found).map fun name => above.map Prod.fst ++ name
    | .error _ => own

/-- Shortens a value by what a pattern matches at its start or end. -/
def cutPattern (operator : Raw) (pattern : List PatternChar) (text : Raw) : Raw :=
  let lengths := List.range (text.length + 1)
  let hit (keep : Nat) : Bool :=
    if operator.head? = some '%' then matchesName pattern (text.drop keep)
    else matchesName pattern (text.take keep)
  let longest :=
    if operator.length = 2 then operator.head? = some '#' else operator.head? = some '%'
  match (if longest then lengths.reverse else lengths).find? hit with
  | some keep => if operator.head? = some '%' then text.take keep else text.drop keep
  | none => text

/-- Arithmetic over whole numbers: the value of an expression and what follows it. The level says
which operators may still come: comparisons, sums, products. -/
def arithmetic (m : Machine) : (bound : Nat) → (level : Nat) → Raw → Option (Int × Raw)
  | 0, _, _ => none
  | bound + 1, 3, text =>
    match text.dropWhile (· == ' ') with
    | '(' :: rest =>
      match arithmetic m bound 0 rest with
      | some (n, rest) =>
        match rest.dropWhile (· == ' ') with
        | ')' :: rest => some (n, rest)
        | _ => none
      | none => none
    | '-' :: rest => (arithmetic m bound 3 rest).map fun (n, rest) => (-n, rest)
    | '!' :: rest => (arithmetic m bound 3 rest).map fun (n, rest) => (if n = 0 then 1 else 0, rest)
    | c :: rest =>
      let word := (c :: rest).takeWhile Reader.isNameChar
      let beyond := (c :: rest).drop word.length
      if word = [] then none
      else if word.all Text.isDigit then some (Text.ofDecimal word, beyond)
      else some ((Utility.integer? (value m word)).getD 0, beyond)
    | [] => none
  | bound + 1, level, text =>
    match arithmetic m bound (level + 1) text with
    | some (n, rest) => more bound level n rest
    | none => none
where
  /-- The operators of a level and what they do. -/
  operations : Nat → List (String × (Int → Int → Int))
    | 0 =>
      let truth (b : Bool) : Int := if b then 1 else 0
      [("==", fun a b => truth (a = b)), ("!=", fun a b => truth (a ≠ b)),
       ("<=", fun a b => truth (a ≤ b)), (">=", fun a b => truth (a ≥ b)),
       ("<", fun a b => truth (a < b)), (">", fun a b => truth (a > b))]
    | 1 => [("+", (· + ·)), ("-", (· - ·))]
    | _ => [("*", (· * ·)), ("/", Int.tdiv), ("%", Int.tmod)]
  more (bound level : Nat) (n : Int) (text : Raw) : Option (Int × Raw) :=
    match bound with
    | 0 => some (n, text)
    | bound + 1 =>
      let text := text.dropWhile (· == ' ')
      let next := (operations level).findSome? fun (mark, apply) =>
        (Text.after? mark.toList text).map fun rest => (apply, rest)
      match next with
      | none => some (n, text)
      | some (apply, rest) =>
        match arithmetic m bound (level + 1) rest with
        | some (k, rest) => more bound level (apply n k) rest
        | none => none

end Run

end ContractBuild.Shell
