import ContractBuild.Shell.Pattern
import ContractBuild.Text.Decimal
import ContractBuild.Workspace

/-! The utilities that scripts can call. A utility is given its arguments and all its input, and
reports what it writes and how it ends. -/
namespace ContractBuild.Shell

/-- What a utility did. -/
structure Report where
  output : Raw
  errors : Raw
  status : Nat
  workspace : Workspace

/-- A utility. -/
abbrev Utility := (arguments : List Raw) → (input : Raw) → Workspace → Report

namespace Utility

/-- A report of success. -/
def succeed (output : Raw) (w : Workspace) : Report := ⟨output, [], 0, w⟩

/-- A report of failure with a message. -/
def fail (message : String) (status : Nat) (w : Workspace) : Report :=
  ⟨[], Raw.ofString (message ++ "\n"), status, w⟩

/-- A report of an answer that is yes or no. -/
def verdict (yes : Bool) (w : Workspace) : Report := ⟨[], [], if yes then 0 else 1, w⟩

/-- The message of a file error without its number. -/
def reason (cause : FileError) : String :=
  ((cause.message.splitOn " (os error").headD cause.message)

/-- The path that an argument writes. -/
def path (argument : Raw) : Path := ⟨Raw.text argument⟩

/-- The whole number that a text writes, if it writes one. -/
def integer? (text : Raw) : Option Int :=
  let text := (text.dropWhile (· == ' ')).reverse.dropWhile (· == ' ') |>.reverse
  let (negative, digits) := match text with
    | '-' :: rest => (true, rest)
    | '+' :: rest => (false, rest)
    | rest => (false, rest)
  if digits = [] ∨ ¬ digits.all Text.isDigit then none
  else some (if negative then -(Text.ofDecimal digits : Int) else Text.ofDecimal digits)

/-- A whole number in decimal. -/
def ofInteger (n : Int) : Raw :=
  if n < 0 then '-' :: Text.decimal n.natAbs else Text.decimal n.natAbs

/-- The number of up to three octal digits, and what follows them. -/
def octal (text : Raw) : Nat × Raw :=
  let digits := (text.take 3).takeWhile fun c => '0' ≤ c ∧ c ≤ '7'
  (digits.foldl (fun n c => 8 * n + (c.toNat - 48)) 0, text.drop digits.length)

/-- The character that a backslash and a letter stand for. -/
def control? (c : Char) : Option Char :=
  match c with
  | 'a' => some '\x07'
  | 'b' => some '\x08'
  | 'f' => some '\x0c'
  | 'n' => some '\n'
  | 'r' => some '\r'
  | 't' => some '\t'
  | 'v' => some '\x0b'
  | '\\' => some '\\'
  | _ => none

theorem octal_length (text : Raw) : (octal text).2.length ≤ text.length := by
  simp [octal]

/-- The number of an octal escape whose first digit is `c`, and what follows it. With `zeroFirst`
set, a zero may stand before its three digits. -/
def octalEscape (zeroFirst : Bool) (c : Char) (rest : Raw) : Nat × Raw :=
  if zeroFirst ∧ c = '0' then octal rest else octal (c :: rest)

theorem octalEscape_length (zeroFirst : Bool) (c : Char) (rest : Raw) :
    (octalEscape zeroFirst c rest).2.length ≤ rest.length + 1 := by
  have first := octal_length rest
  have second := octal_length (c :: rest)
  rw [List.length_cons] at second
  unfold octalEscape
  split <;> omega

/-- A text with its escapes replaced, and whether an escape ended it. With `zeroFirst` set, an octal
escape may have a zero before its three digits. -/
def unescape (zeroFirst : Bool) (text : Raw) : Raw × Bool :=
  match text with
  | [] => ([], false)
  | '\\' :: c :: rest =>
    if c = 'c' then ([], true)
    else if '0' ≤ c ∧ c ≤ '7' then
      let next := octalEscape zeroFirst c rest
      have := octalEscape_length zeroFirst c rest
      let (more, ended) := unescape zeroFirst next.2
      (Char.ofNat (next.1 % 256) :: more, ended)
    else
      match control? c with
      | some x =>
        let (more, ended) := unescape zeroFirst rest
        (x :: more, ended)
      | none =>
        let (more, ended) := unescape zeroFirst rest
        ('\\' :: c :: more, ended)
  | c :: rest =>
    let (more, ended) := unescape zeroFirst rest
    (c :: more, ended)
termination_by text.length
decreasing_by all_goals simp only [List.length_cons]; omega

/-- Writes its arguments. -/
def echo : Utility := fun arguments _ w =>
  let (newline, words) := match arguments with
    | ['-', 'n'] :: words => (false, words)
    | words => (true, words)
  let (text, ended) := unescape true (Text.join [' '] words)
  succeed (if newline ∧ ¬ ended then text ++ ['\n'] else text) w

/-- A text brought to a width with blanks, or with zeros before it. -/
def pad (left zeros : Bool) (width : Nat) (text : Raw) : Raw :=
  let gap := width - text.length
  if left then text ++ List.replicate gap ' '
  else List.replicate gap (if zeros then '0' else ' ') ++ text

/-- The value that a directive of a format shows. -/
def shown (conversion : Char) (precision : Option Nat) (argument : Raw) : Raw :=
  let digits (base : Nat) : Raw := Nat.toDigits base ((integer? argument).getD 0).toNat
  match conversion with
  | 's' => match precision with
    | some limit => argument.take limit
    | none => argument
  | 'b' => (unescape true argument).1
  | 'c' => argument.take 1
  | 'd' | 'i' | 'u' => ofInteger ((integer? argument).getD 0)
  | 'o' => digits 8
  | 'x' => digits 16
  | 'X' => (digits 16).map Char.toUpper
  | _ => []

/-- A format with its directives replaced by arguments, and the arguments left over. -/
def format : (bound : Nat) → Raw → List Raw → Raw × List Raw
  | 0, _, arguments => ([], arguments)
  | _, [], arguments => ([], arguments)
  | bound + 1, '%' :: '%' :: rest, arguments =>
    let (more, left) := format bound rest arguments
    ('%' :: more, left)
  | bound + 1, '%' :: rest, arguments =>
    let flags := rest.takeWhile fun c => ['-', '0', '+', ' '].contains c
    let rest := rest.drop flags.length
    let width := rest.takeWhile Text.isDigit
    let rest := rest.drop width.length
    let (precision, rest) := match rest with
      | '.' :: more =>
        (some (Text.ofDecimal (more.takeWhile Text.isDigit)), more.dropWhile Text.isDigit)
      | more => (none, more)
    match rest with
    | conversion :: rest =>
      let text := shown conversion precision (arguments.headD [])
      let (more, left) := format bound rest (arguments.drop 1)
      (pad (flags.contains '-') (flags.contains '0') (Text.ofDecimal width) text ++ more, left)
    | [] => ([], arguments)
  | bound + 1, c :: rest, arguments =>
    let (more, left) := format bound rest arguments
    (c :: more, left)

/-- A format applied to arguments again and again until none are left. -/
def formatAll : (bound : Nat) → Raw → List Raw → Raw
  | 0, _, _ => []
  | bound + 1, text, arguments =>
    let (shown, left) := format text.length text arguments
    if left = [] ∨ left.length = arguments.length then shown else shown ++ formatAll bound text left

/-- Writes its arguments as a format says. -/
def printf : Utility := fun arguments _ w =>
  match arguments with
  | [] => fail "printf: usage: printf format [arg ...]" 2 w
  | text :: arguments =>
    succeed (formatAll (arguments.length + 1) (unescape false text).1 arguments) w

/-- Whether one argument of a condition holds. -/
def testOne (w : Workspace) (operator operand : Raw) : Option Bool :=
  let node := (w.files.lookup w.here (path operand)).toOption.map Prod.snd
  match String.ofList operator with
  | "-n" => some (operand ≠ [])
  | "-z" => some (operand = [])
  | "-e" => some node.isSome
  | "-f" => some (w.isFile (path operand))
  | "-d" => some (w.isDirectory (path operand))
  | "-r" => some node.isSome
  | "-w" => some node.isSome
  | "-x" => some (match node with
    | some (.file _ executable) => executable
    | some .directory => true
    | _ => false)
  | "-s" => some (match node with
    | some (.file content _) => !content.isEmpty
    | some .directory => true
    | _ => false)
  | "-L" | "-h" => some (match w.files.find false w.here (path operand) with
    | .ok (.taken _ (.link _)) => true
    | _ => false)
  | "-t" => some false
  | _ => none

/-- Whether two arguments of a condition compare, if the operator compares arguments. -/
def testTwo (left operator right : Raw) : Option (Except String Bool) :=
  let compare (holds : Int → Int → Bool) : Option (Except String Bool) :=
    match integer? left, integer? right with
    | some a, some b => some (.ok (holds a b))
    | some _, none => some (.error s!"Illegal number: {Raw.text right}")
    | none, _ => some (.error s!"Illegal number: {Raw.text left}")
  match String.ofList operator with
  | "=" | "==" => some (.ok (left = right))
  | "!=" => some (.ok (left ≠ right))
  | "-eq" => compare fun a b => a = b
  | "-ne" => compare fun a b => a ≠ b
  | "-lt" => compare fun a b => a < b
  | "-le" => compare fun a b => a ≤ b
  | "-gt" => compare fun a b => a > b
  | "-ge" => compare fun a b => a ≥ b
  | _ => none

/-- Whether a condition holds, or why it is none. -/
def condition (w : Workspace) : (bound : Nat) → List Raw → Except String Bool
  | _, [] => .ok false
  | _, [operand] => .ok (operand ≠ [])
  | 0, first :: _ => unexpected first
  | bound + 1, arguments =>
    let split (word : String) : Option (List Raw × List Raw) :=
      let before := arguments.takeWhile (· ≠ word.toList)
      if before.length < arguments.length ∧ before ≠ [] then
        some (before, arguments.drop (before.length + 1))
      else none
    let joined (both : Bool → Bool → Bool) (parts : List Raw × List Raw) : Except String Bool := do
      return both (← condition w bound parts.1) (← condition w bound parts.2)
    match arguments with
    | [left, operator, right] =>
      match testTwo left operator right with
      | some result => result
      | none =>
        if left = ['!'] then (condition w bound [operator, right]).map not else unexpected left
    | ['!'] :: rest => (condition w bound rest).map not
    | [operator, operand] =>
      match testOne w operator operand with
      | some result => .ok result
      | none => unexpected operator
    | _ =>
      match split "-o" with
      | some parts => joined or parts
      | none =>
        match split "-a" with
        | some parts => joined and parts
        | none => unexpected (arguments.headD [])
where
  unexpected (argument : Raw) : Except String Bool :=
    .error s!"{Raw.text argument}: unexpected operator"

/-- Answers whether a condition holds. -/
def answer (name : String) (arguments : List Raw) (w : Workspace) : Report :=
  match condition w (arguments.length + 1) arguments with
  | .ok yes => verdict yes w
  | .error cause => fail s!"{name}: {cause}" 2 w

/-- The test of a condition. -/
def test : Utility := fun arguments _ w => answer "test" arguments w

/-- The test of a condition in brackets. -/
def bracket : Utility := fun arguments _ w =>
  if arguments.getLast? = some [']'] then answer "[" arguments.dropLast w
  else fail "[: missing ]" 2 w

/-- The inputs that operands name, each with its name, and the messages about those that cannot be
read, in which `place` shows the operand. Without operands it is the input given. -/
def inputs (place : String → String) (operands : List Raw) (input : Raw) (w : Workspace) :
    List (Raw × Raw) × Raw :=
  if operands = [] then ([([], input)], [])
  else
    operands.foldl
      (fun (read, errors) operand =>
        if operand = ['-'] then (read ++ [(operand, input)], errors)
        else
          match w.read (path operand) with
          | .ok content => (read ++ [(operand, Raw.ofBytes content)], errors)
          | .error cause =>
            (read, errors ++ Raw.ofString s!"{place (Raw.text operand)}: {reason cause}\n"))
      ([], [])

/-- Splits arguments into the letters of their options and the operands. -/
def options (arguments : List Raw) : Raw × List Raw :=
  let isOption (argument : Raw) : Bool := argument.head? == some '-' && argument.length > 1
  let given := arguments.takeWhile isOption
  (given.flatMap fun argument => argument.drop 1, arguments.drop given.length)

/-- A report on inputs, which fails if one of them could not be read. -/
def report (output errors : Raw) (w : Workspace) : Report :=
  ⟨output, errors, if errors = [] then 0 else 1, w⟩

/-- The lines of a text, the last one also if no newline ends it. -/
def linesOf (text : Raw) : List Raw :=
  let pieces := Text.split (· == '\n') text
  if pieces.getLast? = some [] then pieces.dropLast else pieces

/-- Lines with a newline after each. -/
def ofLines (lines : List Raw) : Raw := lines.flatMap fun line => line ++ ['\n']

/-- A text cut into lines with their newlines. -/
def fullLines (text : Raw) : List Raw :=
  let pieces := Text.split (· == '\n') text
  pieces.dropLast.map (· ++ ['\n']) ++ (pieces.getLast?.filter (· ≠ [])).toList

/-- Writes its inputs one after the other. -/
def cat : Utility := fun arguments input w =>
  let (letters, operands) := options arguments
  let (read, errors) := inputs (fun operand => s!"cat: {operand}") operands input w
  let text := read.flatMap Prod.snd
  let numbered := (fullLines text).zipIdx.flatMap fun (line, i) =>
    pad false false 6 (Text.decimal (i + 1)) ++ '\t' :: line
  report (if letters.contains 'n' then numbered else text) errors w

/-- Texts in the order of their bytes. -/
def sorted (texts : List Raw) : List Raw := texts.mergeSort fun a b => !(b < a)

/-- Lists directories. -/
def ls : Utility := fun arguments _ w =>
  let (letters, operands) := options arguments
  let visible (name : Raw) : Bool :=
    letters.contains 'a' || letters.contains 'A' || name.head? != some '.'
  let own : List Raw := if letters.contains 'a' then [['.'], ['.', '.']] else []
  let listing (directory : Raw) : Raw × Raw :=
    match w.files.listDirectory w.here (path directory) with
    | .ok names =>
      (ofLines (sorted (own ++ (names.map Raw.ofString).filter visible)), [])
    | .error .notDirectory => (ofLines [directory], [])
    | .error cause =>
      ([], Raw.ofString s!"ls: cannot access '{Raw.text directory}': {reason cause}\n")
  let results := (if operands = [] then [['.']] else operands).map listing
  let errors := results.flatMap Prod.snd
  ⟨results.flatMap Prod.fst, errors, if errors = [] then 0 else 2, w⟩

/-- Counts bytes, words and lines. -/
def wc : Utility := fun arguments input w =>
  let (letters, operands) := options arguments
  let (read, errors) := inputs (fun operand => s!"wc: {operand}") operands input w
  let counts (text : Raw) : List Nat :=
    (if letters.contains 'l' ∨ letters = [] then [text.countP (· == '\n')] else []) ++
    (if letters.contains 'w' ∨ letters = [] then
      [(Text.words (fun c => [' ', '\t', '\n', '\r'].contains c) text).length] else []) ++
    (if letters.contains 'c' ∨ letters.contains 'm' ∨ letters = [] then [text.length] else [])
  let total := read.foldl (fun total entry => total + entry.2.length) 0
  let width := if read.length ≤ 1 ∧ (counts []).length = 1 then 1
    else if operands = [] then 7 else (Text.decimal total).length
  let line (entry : Raw × Raw) : Raw :=
    let numbers := (counts entry.2).map fun n => pad false false width (Text.decimal n)
    Text.join [' '] (numbers ++ if entry.1 = [] then [] else [entry.1])
  let all := if read.length > 1 then [line ("total".toList, read.flatMap Prod.snd)] else []
  report (ofLines (read.map line ++ all)) errors w

/-- The characters that a set names, ranges and escapes written out. -/
def characters : Raw → Raw
  | a :: '-' :: b :: rest =>
    ((List.range (b.toNat + 1 - a.toNat)).map fun i => Char.ofNat (a.toNat + i)) ++ characters rest
  | c :: rest => c :: characters rest
  | [] => []

/-- Deletes, squeezes or exchanges characters. -/
def tr : Utility := fun arguments input w =>
  let (letters, sets) := options arguments
  let sets := sets.map fun set => characters (unescape false set).1
  match sets with
  | [set] =>
    if letters.contains 'd' then succeed (input.filter fun c => !set.contains c) w
    else fail "tr: missing operand" 1 w
  | [old, new] =>
    let exchange (c : Char) : Char :=
      match old.findIdx? (· == c) with
      | some i => (new[i]?.or new.getLast?).getD c
      | none => c
    succeed (input.map exchange) w
  | _ => fail "tr: missing operand" 1 w

/-- Looks for a pattern in lines. -/
def grep : Utility := fun arguments input w =>
  let (letters, operands) := options arguments
  match operands with
  | [] =>
    fail "Usage: grep [OPTION]... PATTERNS [FILE]...\nTry 'grep --help' for more information." 2 w
  | pattern :: files =>
    let (read, errors) := inputs (fun operand => s!"grep: {operand}") files input w
    let lower (text : Raw) : Raw := if letters.contains 'i' then text.map Char.toLower else text
    let hits (line : Raw) : Bool :=
      let found := if letters.contains 'F' then Text.occurs (lower pattern) (lower line)
        else matchesLine (lower pattern) (lower line)
      if letters.contains 'v' then !found else found
    let found := read.map fun (name, text) =>
      (name, (linesOf text).zipIdx.filter fun entry => hits entry.1)
    let mark (name : Raw) : Raw := if read.length > 1 then name ++ [':'] else []
    let any := found.any fun entry => !entry.2.isEmpty
    let output := if letters.contains 'q' then []
      else if letters.contains 'c' then
        ofLines (found.map fun (name, lines) => mark name ++ Text.decimal lines.length)
      else if letters.contains 'l' then
        ofLines ((found.filter fun entry => !entry.2.isEmpty).map Prod.fst)
      else ofLines (found.flatMap fun (name, lines) => lines.map fun (line, i) =>
        mark name ++ (if letters.contains 'n' then Text.decimal (i + 1) ++ [':'] else []) ++ line)
    ⟨output, if letters.contains 's' then [] else errors,
      if any ∧ (errors = [] ∨ letters.contains 'q') then 0 else if errors = [] then 1 else 2, w⟩

/-- The count that options give, in lines or, if it is true, in bytes, and the operands. -/
def counted (arguments : List Raw) : Int × Bool × List Raw :=
  match arguments with
  | ('-' :: 'n' :: []) :: n :: rest => ((integer? n).getD 10, false, rest)
  | ('-' :: 'c' :: []) :: n :: rest => ((integer? n).getD 0, true, rest)
  | ('-' :: 'n' :: n) :: rest => ((integer? n).getD 10, false, rest)
  | ('-' :: 'c' :: n) :: rest => ((integer? n).getD 0, true, rest)
  | ('-' :: d :: n) :: rest =>
    if Text.isDigit d then ((integer? (d :: n)).getD 10, false, rest) else (10, false, arguments)
  | rest => (10, false, rest)

/-- Writes the start of its inputs. -/
def head : Utility := fun arguments input w =>
  let (count, bytes, operands) := counted arguments
  let refusal operand := s!"head: cannot open '{operand}' for reading"
  let (read, errors) := inputs refusal operands input w
  let part (text : Raw) : Raw :=
    if bytes then text.take count.toNat else ((fullLines text).take count.toNat).flatten
  report (read.flatMap fun entry => part entry.2) errors w

/-- Writes the end of its inputs. -/
def tail : Utility := fun arguments input w =>
  let (count, bytes, operands) := counted arguments
  let refusal operand := s!"tail: cannot open '{operand}' for reading"
  let (read, errors) := inputs refusal operands input w
  let part (text : Raw) : Raw :=
    let lines := fullLines text
    if bytes then text.drop (text.length - count.natAbs)
    else (lines.drop (lines.length - count.natAbs)).flatten
  report (read.flatMap fun entry => part entry.2) errors w

/-- Sorts lines. -/
def sort : Utility := fun arguments input w =>
  let (letters, operands) := options arguments
  let (read, errors) := inputs (fun operand => s!"sort: cannot read: {operand}") operands input w
  let lines := sorted (read.flatMap fun entry => linesOf entry.2)
  let lines := if letters.contains 'u' then lines.eraseReps else lines
  ⟨ofLines (if letters.contains 'r' then lines.reverse else lines), errors,
    if errors = [] then 0 else 2, w⟩

/-- Writes a range of numbers. -/
def seq : Utility := fun arguments _ w =>
  let range (first step last : Int) : Raw :=
    let count := if step = 0 then 0 else ((last - first) / step + 1).toNat
    ofLines ((List.range count).map fun (i : Nat) => ofInteger (first + step * i))
  match arguments.filterMap integer? with
  | [last] => succeed (range 1 1 last) w
  | [first, last] => succeed (range first 1 last) w
  | [first, step, last] => succeed (range first step last) w
  | _ => fail "seq: missing operand" 1 w

/-- A path without the slashes at its end. -/
def withoutSlashes (text : Raw) : Raw :=
  match text.reverse.dropWhile (· == '/') with
  | [] => text.take 1
  | kept => kept.reverse

/-- Writes the last name of a path, without an ending. -/
def basename : Utility := fun arguments _ w =>
  match arguments with
  | [] => fail "basename: missing operand" 1 w
  | text :: rest =>
    let name := (withoutSlashes text).reverse.takeWhile (· != '/') |>.reverse
    let name := if name = [] then ['/'] else name
    let ending := rest.headD []
    let cut := name.length - ending.length
    succeed ((if cut > 0 ∧ name.drop cut = ending then name.take cut else name) ++ ['\n']) w

/-- Writes a path without its last name. -/
def dirname : Utility := fun arguments _ w =>
  match arguments with
  | [] => fail "dirname: missing operand" 1 w
  | text :: _ =>
    let above := (withoutSlashes text).reverse.dropWhile (· != '/')
    let directory := if above = [] then ['.'] else withoutSlashes above.reverse
    succeed (directory ++ ['\n']) w

/-- Applies a change to each operand. -/
def changeEach (name what : String) (change : Workspace → Path → Except FileError FileTree)
    (operands : List Raw) (w : Workspace) : Report :=
  operands.foldl
    (fun report operand =>
      match change report.workspace (path operand) with
      | .ok files => { report with workspace := { report.workspace with files } }
      | .error cause =>
        { report with
          errors := report.errors ++
            Raw.ofString s!"{name}: {what} '{Raw.text operand}': {reason cause}\n"
          status := 1 })
    (succeed [] w)

/-- Makes files that are not there. -/
def touch : Utility := fun arguments _ w =>
  changeEach "touch" "cannot touch"
    (fun w path => if (w.files.lookup w.here path).toOption.isSome then .ok w.files
      else w.files.write w.here path []) (options arguments).2 w

/-- Makes directories. -/
def mkdir : Utility := fun arguments _ w =>
  let (letters, operands) := options arguments
  changeEach "mkdir" "cannot create directory"
    (fun w path =>
      if letters.contains 'p' then
        match w.files.makeDirectories w.here path with
        | (.ok (), files) => .ok files
        | (.error cause, _) => .error cause
      else w.files.makeDirectory w.here path) operands w

/-- Removes files and directories. -/
def rm : Utility := fun arguments _ w =>
  let (letters, operands) := options arguments
  changeEach "rm" "cannot remove"
    (fun w path =>
      match w.files.removeFile w.here path with
      | .error .isDirectory =>
        if letters.contains 'r' ∨ letters.contains 'R' then
          match w.files.removeTree w.here path with
          | (.ok (), files) => .ok files
          | (.error cause, _) => .error cause
        else .error .isDirectory
      | .error .notFound => if letters.contains 'f' then .ok w.files else .error .notFound
      | result => result) operands w

/-- Writes the working directory. -/
def pwd : Utility := fun _ _ w => succeed (Raw.ofString w.here.path.text ++ ['\n']) w

/-- The utilities by their names. -/
def all : List (String × Utility) :=
  [("echo", echo), ("printf", printf), ("test", test), ("[", bracket),
   ("true", fun _ _ w => verdict true w), ("false", fun _ _ w => verdict false w),
   ("cat", cat), ("ls", ls), ("wc", wc), ("tr", tr), ("grep", grep), ("head", head), ("tail", tail),
   ("sort", sort), ("seq", seq), ("basename", basename), ("dirname", dirname), ("touch", touch),
   ("mkdir", mkdir), ("rm", rm), ("pwd", pwd)]

/-- The utility with a name. -/
def ofName? (name : Raw) : Option Utility :=
  (all.find? fun entry => entry.1.toList = name).map Prod.snd

end Utility

end ContractBuild.Shell
