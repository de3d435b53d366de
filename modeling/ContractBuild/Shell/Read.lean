import ContractBuild.Shell.Script
import ContractBuild.Text.Basic
import ContractBuild.Text.Decimal

/-! Reading shell scripts. Every reader takes what it reads from the start of the text; its first
argument bounds how deep readers call each other, and the length of a script is bound enough. -/
namespace ContractBuild.Shell

/-- A reader of a script. -/
abbrev Reader := StateT Raw Option

namespace Reader

/-- Whether a character ends a word. -/
def endsWord (c : Char) : Bool := [' ', '\t', '\n', ';', '&', '|', '<', '>', '(', ')'].contains c

/-- Whether a character may stand in a name. -/
def isNameChar (c : Char) : Bool := c.isAlphanum || c == '_'

/-- Whether a text is a name. -/
def isName (text : Raw) : Bool :=
  text ≠ [] && text.all isNameChar && !(text.head?.any Char.isDigit)

/-- The words that have a meaning of their own at the start of a command. -/
def closers : List Raw :=
  ["then", "elif", "else", "fi", "do", "done", "esac", "\x7d", "in"].map String.toList

/-- A text without the blanks, joined lines and comment at its start. -/
def afterBlanks : Raw → Raw
  | ' ' :: rest => afterBlanks rest
  | '\t' :: rest => afterBlanks rest
  | '\\' :: '\n' :: rest => afterBlanks rest
  | '#' :: rest => rest.dropWhile (· != '\n')
  | text => text

/-- Skips blanks. -/
def skipBlanks : Reader Unit := modify afterBlanks

/-- Skips blanks and line breaks. -/
def skipLines : (bound : Nat) → Reader Unit
  | 0 => skipBlanks
  | bound + 1 => do
    skipBlanks
    match ← get with
    | '\n' :: rest => set rest; skipLines bound
    | _ => pure ()

/-- Takes a text, which has to come next. -/
def expect (text : String) : Reader Unit := do
  match Text.after? text.toList (← get) with
  | some rest => set rest
  | none => failure

/-- Takes a text if it comes next. -/
def take? (text : String) : Reader Bool := do
  match Text.after? text.toList (← get) with
  | some rest => set rest; return true
  | none => return false

/-- The unquoted word that comes next. -/
def nextWord : Reader Raw := do return (← get).takeWhile fun c => !endsWord c

/-- Takes a word if it comes next, blanks before it. -/
def takeWord? (word : String) : Reader Bool := do
  skipBlanks
  if (← nextWord) = word.toList then expect word; return true else return false

/-- Takes a word, which has to come next after blanks and line breaks. -/
def expectWord (word : String) : Reader Unit := do
  skipLines (← get).length
  if ← takeWord? word then pure () else failure

/-- The text up to a backquote, and the text after it. -/
def backquoted : Raw → Option (Raw × Raw)
  | [] => none
  | '`' :: rest => some ([], rest)
  | '\\' :: c :: rest =>
    (backquoted rest).map fun (inside, beyond) =>
      (if ['`', '\\', '$'].contains c then (c :: inside, beyond) else ('\\' :: c :: inside, beyond))
  | c :: rest => (backquoted rest).map fun (inside, beyond) => (c :: inside, beyond)

/-- The text up to two closing parentheses, and the text after them. -/
def arithmeticText : (depth : Nat) → Raw → Option (Raw × Raw)
  | _, [] => none
  | 0, ')' :: ')' :: rest => some ([], rest)
  | depth, c :: rest =>
    let depth := if c = '(' then depth + 1 else if c = ')' then depth - 1 else depth
    (arithmeticText depth rest).map fun (inside, beyond) => (c :: inside, beyond)

/-- The lines of a text up to one that is the given mark, and the text after that line. -/
def untilMark (tabs : Bool) (mark : Raw) : (lines : List Raw) → Raw × List Raw
  | [] => ([], [])
  | line :: lines =>
    let line := if tabs then line.dropWhile (· == '\t') else line
    if line = mark then ([], lines)
    else
      let (body, rest) := untilMark tabs mark lines
      (line ++ '\n' :: body, rest)

/-- The text that is given on the lines after the current one, up to a mark. -/
def takeDocument (tabs : Bool) (mark : Raw) : Reader Raw := do
  let text ← get
  let line := text.takeWhile (· != '\n')
  match text.dropWhile (· != '\n') with
  | [] => return []
  | _ :: below =>
    let (body, rest) := untilMark tabs mark (Text.split (· == '\n') below)
    set (line ++ '\n' :: Text.join ['\n'] rest)
    return body

/-- The text of a word without its quotes. -/
def unquoted (word : Word) : Raw :=
  word.flatMap fun piece =>
    match piece with
    | .plain text | .fixed text => text
    | .quoted pieces => pieces.flatMap fun piece =>
      match piece with
      | .plain text | .fixed text => text
      | _ => []
    | _ => []

/-- Whether a word has a quoted part. -/
def hasQuotes (word : Word) : Bool :=
  word.any fun piece =>
    match piece with
    | .fixed _ | .quoted _ => true
    | _ => false

/-- The operators that change a value, the longer before the shorter. -/
def operators : List String := [":-", ":=", ":+", "%%", "##", "-", "=", "+", "%", "#"]

/-- Takes the first of some texts that comes next. -/
def takeFirst? : List String → Reader (Option String)
  | [] => return none
  | text :: texts => do if ← take? text then return some text else takeFirst? texts

mutual

/-- What follows a dollar sign. -/
def readDollar : (bound : Nat) → Reader Piece
  | 0 => failure
  | bound + 1 => do
    match ← get with
    | '(' :: '(' :: rest =>
      match arithmeticText 0 rest with
      | some (inside, beyond) =>
        set inside
        let expression ← readUntil bound none
        set beyond
        return .arithmetic expression
      | none => failure
    | '(' :: rest =>
      set rest
      let commands ← readCommands bound
      expect ")"
      return .output commands
    | '\x7b' :: '#' :: c :: rest =>
      if c = '\x7d' then set rest; return .variable ['#']
      else
        let name := (c :: rest).takeWhile isNameChar
        set ((c :: rest).dropWhile isNameChar)
        expect "\x7d"
        return .size name
    | '\x7b' :: c :: rest =>
      let name := if isNameChar c then (c :: rest).takeWhile isNameChar else [c]
      set ((c :: rest).drop name.length)
      if ← take? "\x7d" then return .variable name
      else
        match ← takeFirst? operators with
        | some operator =>
          let argument ← readUntil bound (some '\x7d')
          return .changed name operator.toList argument
        | none => failure
    | c :: rest =>
      if ['@', '*', '#', '?', '$', '!', '-'].contains c ∨ c.isDigit then
        set rest
        return .variable [c]
      else if isNameChar c then
        set ((c :: rest).dropWhile isNameChar)
        return .variable ((c :: rest).takeWhile isNameChar)
      else return .fixed ['$']
    | [] => return .fixed ['$']

/-- A piece of a word outside double quotes. -/
def readPiece (special : Char → Bool) : (bound : Nat) → Reader Piece
  | 0 => failure
  | bound + 1 => do
    match ← get with
    | '\'' :: rest =>
      match rest.dropWhile (· != '\'') with
      | _ :: beyond => set beyond; return .fixed (rest.takeWhile (· != '\''))
      | [] => failure
    | '"' :: rest => set rest; return .quoted (← readQuoted bound)
    | '\\' :: '\n' :: rest => set rest; return .plain []
    | '\\' :: c :: rest => set rest; return .fixed [c]
    | ['\\'] => set ([] : Raw); return .fixed ['\\']
    | '$' :: rest => set rest; readDollar bound
    | '`' :: rest => set rest; readBackquoted bound
    | c :: rest =>
      let ordinary (c : Char) : Bool := !special c && !(['\'', '"', '\\', '$', '`'].contains c)
      set (rest.dropWhile ordinary)
      return .plain (c :: rest.takeWhile ordinary)
    | [] => failure

/-- What stands between backquotes. -/
def readBackquoted : (bound : Nat) → Reader Piece
  | 0 => failure
  | bound + 1 => do
    match backquoted (← get) with
    | some (inside, beyond) =>
      set inside
      let commands ← readCommands bound
      if (← get) ≠ [] then failure
      set beyond
      return .output commands
    | none => failure

/-- What stands between double quotes, the first one read. -/
def readQuoted : (bound : Nat) → Reader (List Piece)
  | 0 => failure
  | bound + 1 => do
    match ← get with
    | '"' :: rest => set rest; return []
    | _ =>
      let piece ← readInner bound
      return piece :: (← readQuoted bound)

/-- A piece between double quotes. -/
def readInner : (bound : Nat) → Reader Piece
  | 0 => failure
  | bound + 1 => do
    match ← get with
    | '\\' :: '\n' :: rest => set rest; return .fixed []
    | '\\' :: c :: rest =>
      if ['$', '`', '"', '\\'].contains c then set rest; return .fixed [c]
      else set (c :: rest); return .fixed ['\\']
    | '$' :: rest => set rest; readDollar bound
    | '`' :: rest => set rest; readBackquoted bound
    | c :: rest =>
      let ordinary (c : Char) : Bool := !(['"', '\\', '$', '`'].contains c)
      set (rest.dropWhile ordinary)
      return .fixed (c :: rest.takeWhile ordinary)
    | [] => failure

/-- Pieces up to a character, or to the end with double quotes as ordinary characters. -/
def readUntil : (bound : Nat) → (stop : Option Char) → Reader (List Piece)
  | 0, _ => failure
  | bound + 1, stop => do
    match stop, ← get with
    | none, [] => return []
    | none, '"' :: rest => set rest; return .fixed ['"'] :: (← readUntil bound none)
    | none, _ => return (← readInner bound) :: (← readUntil bound none)
    | some _, [] => failure
    | some c, d :: rest =>
      if c = d then set rest; return []
      else return (← readPiece (· == c) bound) :: (← readUntil bound (some c))

/-- A word; it is empty at a character that ends words. -/
def readWord : (bound : Nat) → Reader Word
  | 0 => failure
  | bound + 1 => do
    match ← get with
    | [] => return []
    | c :: _ =>
      if endsWord c then return []
      else return (← readPiece endsWord bound) :: (← readWord bound)

/-- The words up to the end of a command. -/
def readWords : (bound : Nat) → Reader (List Word)
  | 0 => failure
  | bound + 1 => do
    skipBlanks
    match ← readWord bound with
    | [] => return []
    | word => return word :: (← readWords bound)

/-- A redirection, if one comes next. -/
def readRedirect? : (bound : Nat) → Reader (Option Redirect)
  | 0 => failure
  | bound + 1 => do
    let (descriptor, text) := match ← get with
      | d :: '<' :: rest =>
        if d.isDigit then (some (d.toNat - 48), '<' :: rest) else (none, d :: '<' :: rest)
      | d :: '>' :: rest =>
        if d.isDigit then (some (d.toNat - 48), '>' :: rest) else (none, d :: '>' :: rest)
      | text => (none, text)
    let target : Reader Word := do
      skipBlanks
      match ← readWord bound with
      | [] => failure
      | word => return word
    match text with
    | '<' :: '<' :: rest =>
      let tabs := rest.head? == some '-'
      set (if tabs then rest.drop 1 else rest)
      let mark ← target
      let body ← takeDocument tabs (unquoted mark)
      if hasQuotes mark then return some (.fromText [.fixed body])
      else
        let rest ← get
        set body
        let pieces ← readUntil bound none
        set rest
        return some (.fromText pieces)
    | '<' :: rest =>
      set rest
      return some (.fromFile (← target))
    | '>' :: '&' :: d :: rest =>
      if d.isDigit then set rest; return some (.toDescriptor (descriptor.getD 1) (d.toNat - 48))
      else failure
    | '>' :: '>' :: rest =>
      set rest
      return some (.toFile (descriptor.getD 1) true (← target))
    | '>' :: '|' :: rest =>
      set rest
      return some (.toFile (descriptor.getD 1) false (← target))
    | '>' :: rest =>
      set rest
      return some (.toFile (descriptor.getD 1) false (← target))
    | _ => return none

/-- The redirections that come next. -/
def readRedirects : (bound : Nat) → Reader (List Redirect)
  | 0 => failure
  | bound + 1 => do
    skipBlanks
    match ← readRedirect? bound with
    | some redirect => return redirect :: (← readRedirects bound)
    | none => return []

/-- The rest of a simple command. -/
def readSimple : (bound : Nat) → (line : Nat) → List (Raw × Word) → List Word → List Redirect →
    Reader Command
  | 0, _, _, _, _ => failure
  | bound + 1, line, assignments, words, redirects => do
    skipBlanks
    match ← readRedirect? bound with
    | some redirect => readSimple bound line assignments words (redirects ++ [redirect])
    | none =>
      let name := (← get).takeWhile isNameChar
      if words = [] ∧ isName name ∧ ((← get).drop name.length).head? = some '=' then
        modify fun text => text.drop (name.length + 1)
        let value ← readWord bound
        readSimple bound line (assignments ++ [(name, value)]) words redirects
      else
        match ← readWord bound with
        | [] =>
          if assignments.isEmpty && words.isEmpty && redirects.isEmpty then failure
          return .simple line assignments words redirects
        | word => readSimple bound line assignments (words ++ [word]) redirects

/-- The branches of a choice after its first keyword. -/
def readBranches : (bound : Nat) → Reader (List (List Command × List Command) × List Command)
  | 0 => failure
  | bound + 1 => do
    let condition ← readCommands bound
    expectWord "then"
    let body ← readCommands bound
    skipLines (← get).length
    if ← takeWord? "elif" then
      let (branches, otherwise) ← readBranches bound
      return ((condition, body) :: branches, otherwise)
    else if ← takeWord? "else" then
      let otherwise ← readCommands bound
      expectWord "fi"
      return ([(condition, body)], otherwise)
    else
      expectWord "fi"
      return ([(condition, body)], [])

/-- The body of a loop. -/
def readBody : (bound : Nat) → Reader (List Command)
  | 0 => failure
  | bound + 1 => do
    expectWord "do"
    let body ← readCommands bound
    expectWord "done"
    return body

/-- The patterns of a case. -/
def readPatterns : (bound : Nat) → Reader (List Word)
  | 0 => failure
  | bound + 1 => do
    skipBlanks
    let word ← readWord bound
    skipBlanks
    if ← take? "|" then return word :: (← readPatterns bound)
    else
      expect ")"
      return [word]

/-- The cases of a selection, and its last keyword. -/
def readCases : (bound : Nat) → Reader (List (List Word × List Command))
  | 0 => failure
  | bound + 1 => do
    skipLines (← get).length
    if ← takeWord? "esac" then return []
    else
      let _ ← take? "("
      let patterns ← readPatterns bound
      let body ← readCommands bound
      skipLines (← get).length
      let _ ← take? ";;"
      return (patterns, body) :: (← readCases bound)

/-- A command. -/
def readCommand : (bound : Nat) → Reader Command
  | 0 => failure
  | bound + 1 => do
    skipBlanks
    let line := (← get).countP (· == '\n')
    let word ← nextWord
    let finish (command : Command) : Reader Command := do
      match ← readRedirects bound with
      | [] => return command
      | redirects => return .redirected command redirects
    if (← get).head? = some '(' then
      expect "("
      let body ← readCommands bound
      expect ")"
      finish (.apart body)
    else if ← takeWord? "\x7b" then
      let body ← readCommands bound
      expectWord "\x7d"
      finish (.group body)
    else if ← takeWord? "if" then
      let (branches, otherwise) ← readBranches bound
      finish (.choose branches otherwise)
    else if ← takeWord? "while" then
      let condition ← readCommands bound
      finish (.loop false condition (← readBody bound))
    else if ← takeWord? "until" then
      let condition ← readCommands bound
      finish (.loop true condition (← readBody bound))
    else if ← takeWord? "for" then
      skipBlanks
      let name ← nextWord
      modify fun text => text.drop name.length
      skipLines (← get).length
      let words ← if ← takeWord? "in" then some <$> readWords bound else pure none
      skipBlanks
      let _ ← take? ";"
      finish (.each name words (← readBody bound))
    else if ← takeWord? "case" then
      skipBlanks
      let word ← readWord bound
      expectWord "in"
      finish (.select word (← readCases bound))
    else if isName word ∧ (afterBlanks ((← get).drop word.length)).head? = some '(' then
      modify fun text => text.drop word.length
      skipBlanks
      expect "("
      skipBlanks
      expect ")"
      skipLines (← get).length
      return .define word (← readCommand bound)
    else readSimple bound line [] [] []

/-- The stages of a pipeline. -/
def readStages : (bound : Nat) → Reader (List Command)
  | 0 => failure
  | bound + 1 => do
    let command ← readCommand bound
    skipBlanks
    match ← get with
    | '|' :: '|' :: _ => return [command]
    | '|' :: rest =>
      set rest
      skipLines rest.length
      return command :: (← readStages bound)
    | _ => return [command]

/-- A pipeline. -/
def readPipeline : (bound : Nat) → Reader Command
  | 0 => failure
  | bound + 1 => do
    let negated ← takeWord? "!"
    match ← readStages bound with
    | [command] => if negated then return .pipeline true [command] else return command
    | stages => return .pipeline negated stages

/-- What follows a pipeline that is joined to others. -/
def readJoined : (bound : Nat) → Command → Reader Command
  | 0, _ => failure
  | bound + 1, first => do
    skipBlanks
    if ← take? "&&" then
      skipLines (← get).length
      readJoined bound (.both first (← readPipeline bound))
    else if ← take? "||" then
      skipLines (← get).length
      readJoined bound (.either first (← readPipeline bound))
    else return first

/-- Commands up to the end, a closing parenthesis, the end of a case or a word that closes what is
open. -/
def readCommands : (bound : Nat) → Reader (List Command)
  | 0 => failure
  | bound + 1 => do
    skipLines (← get).length
    let text ← get
    if text.isEmpty || text.head? == some ')' || (Text.after? [';', ';'] text).isSome ||
        closers.contains (← nextWord) then
      return []
    else
      let command ← readJoined bound (← readPipeline bound)
      skipBlanks
      match ← get with
      | ';' :: ';' :: _ => return [command]
      | ';' :: rest => set rest; return command :: (← readCommands bound)
      | '&' :: rest => set rest; return command :: (← readCommands bound)
      | '\n' :: rest => set rest; return command :: (← readCommands bound)
      | _ => return [command]

end

/-- Readers that may call each other for each character of a script. -/
def readersPerChar : Nat := 16

end Reader

/-- The commands of a script, if all of it can be read. -/
def readScript? (text : Raw) : Option (List Command) :=
  match (Reader.readCommands (Reader.readersPerChar * (text.length + 1))).run text with
  | some (commands, []) => some commands
  | _ => none

end ContractBuild.Shell
