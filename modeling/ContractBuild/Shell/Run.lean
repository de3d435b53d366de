import ContractBuild.Shell.Builtin

/-! Running shell scripts. The first argument of each part of the interpreter bounds how deep the
parts call each other; a script that needs more is stopped. -/
namespace ContractBuild.Shell

namespace Run

mutual

/-- Expands the pieces of a word. -/
def expand (bound : Nat) (streams : Streams) (quoted : Bool) : List Piece → Run (List Atom)
  | [] => return []
  | piece :: pieces =>
    match bound with
    | 0 => throw .stopped
    | bound + 1 => do
      let first ← match piece with
        | .plain text => pure (atoms quoted text)
        | .fixed text => pure (.present :: atoms true text)
        | .quoted inner => do
          let inside ← expand bound streams true inner
          match inner with
          | [.variable ['@']] => pure inside
          | _ => pure (.present :: inside)
        | .variable ['@'] => do
          let arguments := (← get).arguments
          if quoted then
            let shown := arguments.map fun argument => .present :: atoms true argument
            pure (shown.intersperse [.gap]).flatten
          else
            let m ← get
            pure ((arguments.map (splitAtoms m false)).intersperse [.gap]).flatten
        | .variable name => do
          let m ← get
          pure (splitAtoms m quoted (value m name))
        | .size name => pure (atoms quoted (Text.decimal (value (← get) name).length))
        | .changed name operator argument => do
          let m ← get
          let current := value m name
          let missing := if operator.head? = some ':' then current = [] else !(isSet m name)
          match operator.getLast? with
          | some '-' =>
            if missing then expand bound streams quoted argument
            else pure (splitAtoms m quoted current)
          | some '+' =>
            if missing then pure [] else expand bound streams quoted argument
          | some '=' =>
            if missing then
              let text ← expandText bound streams argument
              assign name text
              pure (splitAtoms m quoted text)
            else pure (splitAtoms m quoted current)
          | _ =>
            let pattern ← expandPattern bound streams argument
            pure (splitAtoms m quoted (cutPattern operator pattern current))
        | .output commands => do
          let text ← collect fun sink =>
            apart (runAll bound { streams with output := sink } commands)
          let text := (text.filter (· != '\x00')).reverse.dropWhile (· == '\n')
          pure (splitAtoms (← get) quoted text.reverse)
        | .arithmetic expression => do
          let text ← expandText bound streams expression
          match arithmetic (← get) bound 0 text with
          | some (n, rest) =>
            if rest.all (· == ' ') then pure (atoms quoted (Utility.ofInteger n))
            else refuse streams s!"arithmetic expression: expecting EOF: \"{Raw.text text}\""
          | none => refuse streams s!"arithmetic expression: expecting primary: \"{Raw.text text}\""
      return first ++ (← expand bound streams quoted pieces)

/-- Expands pieces into one text. -/
def expandText (bound : Nat) (streams : Streams) (pieces : List Piece) : Run Raw := do
  match bound with
  | 0 => throw .stopped
  | bound + 1 =>
    return (← expand bound streams true pieces).filterMap fun
      | .char c _ => some c
      | .present => none
      | .gap => some ' '

/-- Expands pieces into a pattern. -/
def expandPattern (bound : Nat) (streams : Streams) (pieces : List Piece) :
    Run (List PatternChar) := do
  match bound with
  | 0 => throw .stopped
  | bound + 1 =>
    return (← expand bound streams false pieces).filterMap fun
      | .char c quoted => some (c, quoted)
      | .present => none
      | .gap => some (' ', true)

/-- Expands words into the arguments they stand for. -/
def expandWords (bound : Nat) (streams : Streams) : List Word → Run (List Raw)
  | [] => return []
  | word :: words =>
    match bound with
    | 0 => throw .stopped
    | bound + 1 => do
      let found := fields (← expand bound streams false word)
      let names := found.flatMap (namesOf (← get).workspace)
      return names ++ (← expandWords bound streams words)

/-- Runs an action with redirections. -/
def redirect (bound : Nat) (streams : Streams) (act : Streams → Run Unit) :
    List Redirect → Run Unit
  | [] => act streams
  | change :: changes =>
    match bound with
    | 0 => throw .stopped
    | bound + 1 => do
      let fail (act missing : String) (target : Raw) (cause : FileError) : Run Unit :=
        let reason := if cause = .notFound then missing else Utility.reason cause
        complain streams s!"cannot {act} {Raw.text target}: {reason}" 2
      let send (descriptor : Nat) (sink : Sink) : Run Unit :=
        redirect bound
          (if descriptor = 2 then { streams with errors := sink }
            else { streams with output := sink })
          act changes
      match change with
      | .toDescriptor descriptor target =>
        send descriptor (if target = 2 then streams.errors else streams.output)
      | .toFile descriptor append target => do
        let name ← expandText bound streams target
        if name = "/dev/null".toList then send descriptor .nowhere
        else
          let m ← get
          let path := Utility.path name
          let before := if append then (m.workspace.read path).toOption.getD [] else []
          match m.workspace.files.write m.workspace.here path before with
          | .ok files =>
            set { m with workspace := { m.workspace with files } }
            send descriptor (.file path)
          | .error cause => fail "create" "Directory nonexistent" name cause
      | .fromFile source => do
        let name ← expandText bound streams source
        if name = "/dev/null".toList then withInput [] (redirect bound streams act changes)
        else
          match (← get).workspace.read (Utility.path name) with
          | .ok content => withInput (Raw.ofBytes content) (redirect bound streams act changes)
          | .error cause => fail "open" "No such file" name cause
      | .fromText pieces => do
        let text ← expandText bound streams pieces
        withInput text (redirect bound streams act changes)

/-- Runs a program with its arguments. -/
def call (bound : Nat) (streams : Streams) (name : Raw) (arguments : List Raw) :
    Run Unit := do
  match bound with
  | 0 => throw .stopped
  | bound + 1 =>
    let m ← get
    match m.functions.find? fun entry => entry.1 = name with
    | some (_, body) =>
      set { m with arguments, own := [] }
      try runOne bound streams body
      catch
        | .back status => setStatus status
        | other => throw other
      modify fun after =>
        { after with
          arguments := m.arguments
          own := m.own
          bindings :=
            (m.bindings.filter fun entry => after.own.contains entry.1) ++
              after.bindings.filter fun entry => !after.own.contains entry.1 }
    | none =>
      match Raw.text name, arguments with
      | "exec", program :: rest =>
        if ¬ program.contains '/' ∧ (Utility.ofName? program).isNone ∧ program ≠ "sleep".toList then
          complain streams s!"exec: {Raw.text program}: not found" 127
        else call bound streams program rest
        throw (.exit (← get).status)
      | "exec", [] => setStatus 0
      | "command", ['-', 'v'] :: program :: _ =>
        let word := Raw.text program
        let isOwn := m.functions.any (fun entry => entry.1 = program) || builtins.contains word ||
          (special? streams word []).isSome
        if isOwn then write streams.output (program ++ ['\n']); setStatus 0
        else if (Utility.ofName? program).isSome then
          write streams.output ("/usr/bin/".toList ++ program ++ ['\n'])
          setStatus 0
        else setStatus 127
      | "command", program :: rest => call bound streams program rest
      | "sh", ['-', 'c'] :: text :: rest =>
        apart do
          match readScript? text with
          | some commands =>
            modify fun m =>
              { m with
                name := rest.headD ['s', 'h']
                arguments := rest.drop 1
                lines := text.countP (· == '\n') }
            runAll bound streams commands
          | none => complain streams "Syntax error" 2
      | "eval", words =>
        match readScript? (Text.join [' '] words) with
        | some commands => runAll bound streams commands
        | none => complain streams "Syntax error" 2
      | word, _ =>
        match special? streams word arguments with
        | some act => act
        | none =>
          match Utility.ofName? name with
          | some utility =>
            useUtility streams (if builtins.contains word then mark m else []) utility arguments
            if readers.contains word then modify fun m => { m with input := [] }
          | none =>
            if name.contains '/' then runFile bound streams name arguments
            else complain streams s!"{word}: not found" 127

/-- Runs a script that is a file. -/
def runFile (bound : Nat) (streams : Streams) (name : Raw) (arguments : List Raw) : Run Unit := do
  match bound with
  | 0 => throw .stopped
  | bound + 1 =>
    let m ← get
    match m.workspace.files.lookup m.workspace.here (Utility.path name) with
    | .ok (_, .file content true) =>
      match readScript? (Raw.ofBytes content) with
      | some commands =>
        apart do
          modify fun m =>
            { m with name, arguments, lines := (Raw.ofBytes content).countP (· == '\n') }
          runAll bound streams commands
      | none => complain streams "Syntax error" 2
    | .ok _ => complain streams s!"{Raw.text name}: Permission denied" 126
    | .error _ => complain streams s!"{Raw.text name}: not found" 127

/-- Runs the stages of a pipeline, each on what the one before it wrote. -/
def runStages (bound : Nat) (streams : Streams) : List Command → Run Unit
  | [] => pure ()
  | [last] =>
    match bound with
    | 0 => throw .stopped
    | bound + 1 => apart (runOne bound streams last)
  | stage :: stages =>
    match bound with
    | 0 => throw .stopped
    | bound + 1 => do
      let text ← collect fun sink => apart (runOne bound { streams with output := sink } stage)
      withInput text (runStages bound streams stages)

/-- Runs the body of a loop and answers whether the loop goes on. -/
def runBody (bound : Nat) (streams : Streams) (body : List Command) : Run Bool := do
  match bound with
  | 0 => throw .stopped
  | bound + 1 =>
    try
      runAll bound streams body
      return true
    catch
      | .leave loops => if loops ≤ 1 then return false else throw (.leave (loops - 1))
      | .again loops => if loops ≤ 1 then return true else throw (.again (loops - 1))
      | other => throw other

/-- Runs a loop over values. -/
def runEach (bound : Nat) (streams : Streams) (name : Raw) (body : List Command) :
    List Raw → Run Unit
  | [] => pure ()
  | text :: texts =>
    match bound with
    | 0 => throw .stopped
    | bound + 1 => do
      assign name text
      if ← runBody bound streams body then runEach bound streams name body texts

/-- Runs a loop with a condition. -/
def runLoop (bound : Nat) (streams : Streams) (untilSuccess : Bool)
    (condition body : List Command) :
    Run Unit := do
  match bound with
  | 0 => throw .stopped
  | bound + 1 =>
    let before := (← get).status
    awaiting (runAll bound streams condition)
    if ((← get).status = 0) = ¬ untilSuccess then
      setStatus before
      if ← runBody bound streams body then runLoop bound streams untilSuccess condition body
    else setStatus 0

/-- Runs the first branch whose condition succeeds. -/
def runBranches (bound : Nat) (streams : Streams) (otherwise : List Command) :
    List (List Command × List Command) → Run Unit
  | [] =>
    match bound with
    | 0 => throw .stopped
    | bound + 1 => do
      setStatus 0
      runAll bound streams otherwise
  | (condition, body) :: branches =>
    match bound with
    | 0 => throw .stopped
    | bound + 1 => do
      awaiting (runAll bound streams condition)
      if (← get).status = 0 then runAll bound streams body
      else runBranches bound streams otherwise branches

/-- Runs the first case that matches a text. -/
def runCases (bound : Nat) (streams : Streams) (text : Raw) :
    List (List Word × List Command) → Run Unit
  | [] => setStatus 0
  | (patterns, body) :: cases =>
    match bound with
    | 0 => throw .stopped
    | bound + 1 => do
      let found ← patterns.anyM fun pattern => do
        return matchesName (← expandPattern bound streams pattern) text
      if found then
        setStatus 0
        runAll bound streams body
      else runCases bound streams text cases

/-- Runs a command. -/
def runOne (bound : Nat) (streams : Streams) (command : Command) : Run Unit := do
  match bound with
  | 0 => throw .stopped
  | bound + 1 =>
    match command with
    | .simple line assignments words redirects =>
      modify fun m => { m with after := line }
      match ← expandWords bound streams words with
      | [] =>
        setStatus 0
        for (name, word) in assignments do
          assign name (← expandText bound streams word)
        redirect bound streams (fun _ => pure ()) redirects
        check
      | name :: arguments =>
        let before := (← get).bindings
        for (target, word) in assignments do
          assign target (← expandText bound streams word)
        redirect bound streams (fun streams => call bound streams name arguments) redirects
        let isTarget (entry : Raw × Raw) : Bool :=
          assignments.any fun assignment => assignment.1 = entry.1
        modify fun m =>
          { m with bindings := m.bindings.filter (!isTarget ·) ++ before.filter isTarget }
      check
    | .pipeline negated stages =>
      let act := match stages with
        | [stage] => runOne bound streams stage
        | stages => runStages bound streams stages
      if negated then
        awaiting act
        modify fun m => { m with status := if m.status = 0 then 1 else 0 }
      else
        act
        check
    | .both first second =>
      awaiting (runOne bound streams first)
      if (← get).status = 0 then runOne bound streams second
    | .either first second =>
      awaiting (runOne bound streams first)
      if (← get).status ≠ 0 then runOne bound streams second
    | .choose branches otherwise => runBranches bound streams otherwise branches
    | .each name words body =>
      let texts ← match words with
        | some words => expandWords bound streams words
        | none => pure (← get).arguments
      setStatus 0
      runEach bound streams name body texts
    | .loop untilSuccess condition body => runLoop bound streams untilSuccess condition body
    | .select word cases => runCases bound streams (← expandText bound streams word) cases
    | .group body => runAll bound streams body
    | .apart body =>
      apart (runAll bound streams body)
      check
    | .redirected inner redirects =>
      redirect bound streams (fun streams => runOne bound streams inner) redirects
    | .define name body =>
      modify fun m => { m with functions := (name, body) :: m.functions, status := 0 }

/-- Runs commands one after the other. -/
def runAll (bound : Nat) (streams : Streams) : List Command → Run Unit
  | [] => pure ()
  | command :: commands =>
    match bound with
    | 0 => throw .stopped
    | bound + 1 => do
      runOne bound streams command
      runAll bound streams commands

end

end Run

end ContractBuild.Shell
