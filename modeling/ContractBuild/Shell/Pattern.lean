import ContractBuild.Shell.Script

/-! Patterns: those that match names and those that match lines. A pattern is read into steps first,
and the steps are then tried on a text. -/
namespace ContractBuild.Shell

/-- A character of a pattern, and whether it is quoted and so stands for itself. -/
abbrev PatternChar := Char × Bool

/-- A set of characters, as it is written between brackets. -/
structure CharSet where
  negated : Bool
  ranges : List (Char × Char)

namespace CharSet

/-- Every character. -/
def all : CharSet := ⟨true, []⟩

/-- One character. -/
def one (c : Char) : CharSet := ⟨false, [(c, c)]⟩

/-- Whether a character is in a set. -/
def contains (set : CharSet) (c : Char) : Bool :=
  set.negated != set.ranges.any fun range => range.1 ≤ c && c ≤ range.2

/-- The ranges that characters write; a dash between two characters makes a range. -/
def rangesOf : Raw → List (Char × Char)
  | a :: '-' :: b :: rest => (a, b) :: rangesOf rest
  | c :: rest => (c, c) :: rangesOf rest
  | [] => []

/-- The set that characters between brackets write. -/
def ofText : Raw → CharSet
  | c :: rest => if c = '!' ∨ c = '^' then ⟨true, rangesOf rest⟩ else ⟨false, rangesOf (c :: rest)⟩
  | [] => ⟨false, []⟩

end CharSet

/-- How many characters come before a closing bracket that is not the first of a set. -/
def setLength? (text : Raw) : Option Nat :=
  let first := (text.takeWhile fun c => c == '!' || c == '^').length.min 1 + 1
  ((text.drop first).findIdx? (· == ']')).map (first + ·)

/-- A step of a name pattern. -/
inductive NameStep where
  | anything
  | one (set : CharSet)

/-- The steps of a name pattern; stars, question marks and brackets have a meaning unless they are
quoted. -/
def nameSteps (pattern : List PatternChar) : List NameStep :=
  match pattern with
  | [] => []
  | ('*', false) :: rest => .anything :: nameSteps rest
  | ('?', false) :: rest => .one .all :: nameSteps rest
  | ('[', false) :: rest =>
    match setLength? (rest.map Prod.fst) with
    | some length =>
      .one (.ofText ((rest.take length).map Prod.fst)) :: nameSteps (rest.drop (length + 1))
    | none => .one (.one '[') :: nameSteps rest
  | (c, _) :: rest => .one (.one c) :: nameSteps rest
termination_by pattern.length
decreasing_by all_goals simp only [List.length_drop, List.length_cons]; omega

/-- Whether steps match a whole text. -/
def matchesSteps : List NameStep → Raw → Bool
  | [], text => text.isEmpty
  | .anything :: steps, [] => matchesSteps steps []
  | .anything :: steps, c :: text =>
    matchesSteps steps (c :: text) || matchesSteps (.anything :: steps) text
  | .one set :: steps, c :: text => set.contains c && matchesSteps steps text
  | .one _ :: _, [] => false
termination_by steps text => steps.length + text.length

/-- Whether a name pattern matches a whole text. -/
def matchesName (pattern : List PatternChar) (text : Raw) : Bool :=
  matchesSteps (nameSteps pattern) text

/-- Whether a text holds a pattern character that is not quoted. -/
def isPattern (text : List PatternChar) : Bool :=
  text.any fun (c, quoted) => !quoted && (c == '*' || c == '?' || c == '[')

/-- A step of a line pattern. -/
inductive LineStep where
  | one (set : CharSet)
  /-- Any number of characters of a set. -/
  | many (set : CharSet)
  | lineEnd

/-- The steps of a line pattern: a point is any character, a star any number of what is before it,
and a dollar sign at the end is the end of the line. -/
def lineSteps (pattern : Raw) : List LineStep :=
  let repeated (set : CharSet) (rest : Raw) : LineStep × Nat :=
    if rest.head? = some '*' then (.many set, 1) else (.one set, 0)
  match pattern with
  | [] => []
  | ['$'] => [.lineEnd]
  | '\\' :: c :: rest =>
    let (step, taken) := repeated (.one c) rest
    step :: lineSteps (rest.drop taken)
  | '[' :: rest =>
    match setLength? rest with
    | some length =>
      let (step, taken) := repeated (.ofText (rest.take length)) (rest.drop (length + 1))
      step :: lineSteps (rest.drop (length + 1 + taken))
    | none => .one (.one '[') :: lineSteps rest
  | c :: rest =>
    let (step, taken) := repeated (if c = '.' then .all else .one c) rest
    step :: lineSteps (rest.drop taken)
termination_by pattern.length
decreasing_by all_goals simp only [List.length_drop, List.length_cons]; omega

/-- Whether steps match at the start of a text. -/
def matchesHere : List LineStep → Raw → Bool
  | [], _ => true
  | .lineEnd :: _, text => text.isEmpty
  | .one set :: steps, c :: text => set.contains c && matchesHere steps text
  | .one _ :: _, [] => false
  | .many _ :: steps, [] => matchesHere steps []
  | .many set :: steps, c :: text =>
    matchesHere steps (c :: text) || (set.contains c && matchesHere (.many set :: steps) text)
termination_by steps text => steps.length + text.length

/-- Whether a line pattern matches somewhere in a line. -/
def matchesLine (pattern : Raw) (line : Raw) : Bool :=
  match pattern with
  | '^' :: rest => matchesHere (lineSteps rest) line
  | pattern =>
    let steps := lineSteps pattern
    ((List.range (line.length + 1)).map line.drop).any (matchesHere steps)

end ContractBuild.Shell
