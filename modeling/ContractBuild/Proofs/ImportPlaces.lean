import ContractBuild.Proofs.RespelledCells

/-! Where the imports of a text stand. An import starts with its keyword and has its path between two
quotes that are seen; the scan goes on behind the second one. What it comes by on its way through a
text is told here once, so that nothing else has to follow it. -/
namespace ContractBuild.ImportPlaces
open PathWalk RespelledCells Shading Source

section Layout
variable {cells rest : List Cell}

theorem word_spelled {word : List Char} (found : afterWord? word cells = some rest) :
    cells.map Cell.face = word ++ rest.map Cell.face := by
  induction word generalizing cells with
  | nil => exact congrArg (List.map Cell.face) (Option.some.inj found)
  | cons c word ih =>
    cases cells with
    | nil => cases found
    | cons cell cells =>
      simp only [afterWord?] at found
      split at found
      · rename_i own
        rw [List.map_cons, own, ih found, List.cons_append]
      · cases found

/-- What follows a part is an end of the cells. -/
theorem suffix_of_in_step {parse : List Cell → Option (List Cell)} (steps : InStep parse)
    (found : parse cells = some rest) : rest <:+ cells := by
  have kept : ∀ cells : List Cell, oldCells (cells.map fun cell => .keep cell cell rfl) = cells := by
    intro cells
    induction cells with
    | nil => rfl
    | cons cell cells ih => rw [List.map_cons, old_keep, ih]
  rcases steps (cells.map fun cell => .keep cell cell rfl) with ⟨none, -⟩ | ⟨pieces, inner, some, -⟩
  · rw [kept, found] at none
    cases none
  · rw [kept, found] at some
    obtain ⟨front, whole⟩ := inner
    refine ⟨oldCells front, ?_⟩
    rw [Option.some.inj some, ← old_append, whole, kept]

private theorem blank_before_skipped {cell : Cell} (blank : Text.isBlank cell.face = true)
    (cells : List Cell) : ∃ front last, cell :: cells = front ++ last :: skipBlanks cells ∧
      Text.isBlank last.face = true := by
  induction cells generalizing cell with
  | nil => exact ⟨[], cell, rfl, blank⟩
  | cons next cells ih =>
    cases more : Text.isBlank next.face with
    | true =>
      obtain ⟨front, last, whole, blank'⟩ := ih more
      have skipped : skipBlanks (next :: cells) = skipBlanks cells := by simp [skipBlanks, more]
      exact ⟨cell :: front, last, by rw [skipped, whole, List.cons_append], blank'⟩
    | false =>
      have kept : skipBlanks (next :: cells) = next :: cells := by simp [skipBlanks, more]
      exact ⟨[], cell, by rw [kept, List.nil_append], blank⟩

/-- What follows blanks has a blank before it. -/
theorem blank_before (found : afterBlanks? cells = some rest) :
    ∃ front blank, cells = front ++ blank :: rest ∧ Text.isBlank blank.face = true := by
  cases cells with
  | nil => cases found
  | cons cell cells =>
    simp only [afterBlanks?] at found
    split at found
    · rename_i first
      obtain rfl := Option.some.inj found
      exact blank_before_skipped first cells
    · cases found

/-- How a literal lies: between two quotes, with neither a quote of its own nor a newline in it. -/
private theorem layout_of_literal {directive : Import}
    (read : Import.literal? cells = some (directive, rest)) :
    ∃ opening inside closing, cells = opening :: (inside ++ closing :: rest) ∧
      IsQuote opening.face ∧ closing.face = opening.face ∧
      (∀ cell ∈ inside, cell.face ≠ opening.face ∧ cell.face ≠ '\n') ∧
      directive = ⟨String.ofList (inside.map Cell.char), ⟨opening.offset + 1, closing.offset⟩⟩ := by
  cases cells with
  | nil => cases read
  | cons opening cells =>
    simp only [Import.literal?] at read
    split at read
    · rename_i quoted
      split at read
      · rename_i closing tail shape
        split at read
        · rename_i closed
          obtain ⟨rfl, rfl⟩ := Prod.mk.inj (Option.some.inj read)
          have split := List.takeWhile_append_dropWhile
            (p := fun cell => decide (cell.face ≠ opening.face ∧ cell.face ≠ '\n')) (l := cells)
          rw [shape] at split
          refine ⟨opening, _, closing, by rw [split], quoted, closed, fun cell among => ?_, rfl⟩
          simpa using List.all_eq_true.mp List.all_takeWhile cell among
        · cases read
      · cases read
    · cases read

/-- How a directive lies: its word first, and after a blank its literal. -/
theorem layout_of_match {directive : Import} (found : Import.match? cells = some (directive, rest)) :
    ∃ word lead blank opening inside closing,
      cells = (word ++ lead ++ [blank]) ++ opening :: (inside ++ closing :: rest) ∧
      word.map Cell.face = ['i', 'm', 'p', 'o', 'r', 't'] ∧
      Text.isBlank blank.face = true ∧ IsQuote opening.face ∧ closing.face = opening.face ∧
      (∀ cell ∈ inside, cell.face ≠ opening.face ∧ cell.face ≠ '\n') ∧
      directive = ⟨String.ofList (inside.map Cell.char), ⟨opening.offset + 1, closing.offset⟩⟩ := by
  -- The literal starts after blanks, be there a clause or not.
  obtain ⟨target, word, lead, blank, whole, spelled, isBlank, read⟩ : ∃ target word lead blank,
      cells = word ++ (lead ++ blank :: target) ∧
        word.map Cell.face = ['i', 'm', 'p', 'o', 'r', 't'] ∧ Text.isBlank blank.face = true ∧
        Import.literal? target = some (directive, rest) := by
    unfold Import.match? at found
    split at found
    · cases found
    · rename_i target start
      obtain ⟨worded, word, blanks⟩ := Option.bind_eq_some_iff.mp start
      obtain ⟨outer, rfl⟩ := suffix_of_in_step (word_in_step (by simp [IsQuote])) word
      have faces := word_spelled word
      rw [List.map_append] at faces
      have spelled := List.append_cancel_right faces
      split at found
      · rename_i target' clause
        obtain ⟨spaced, names, from_⟩ := Option.bind_eq_some_iff.mp clause
        obtain ⟨worded', word', blanks'⟩ := Option.bind_eq_some_iff.mp from_
        obtain ⟨first, rfl⟩ := suffix_of_in_step blanks_in_step blanks
        obtain ⟨second, rfl⟩ := suffix_of_in_step (in_step_bind names_in_step blanks_in_step) names
        obtain ⟨third, rfl⟩ := suffix_of_in_step (word_in_step (by simp [IsQuote])) word'
        obtain ⟨front, blank, rfl, isBlank⟩ := blank_before blanks'
        exact ⟨target', outer, first ++ (second ++ (third ++ front)), blank, by simp, spelled, isBlank,
          found⟩
      · obtain ⟨front, blank, rfl, isBlank⟩ := blank_before blanks
        exact ⟨target, outer, front, blank, by simp, spelled, isBlank, found⟩
  obtain ⟨opening, inside, closing, rfl, literal⟩ := layout_of_literal read
  exact ⟨word, lead, blank, opening, inside, closing, by simp [whole], spelled, isBlank, literal⟩

end Layout

section Seen
variable {mode : Mode} {quote : Char} {cell : Cell}

/-- What is seen and neither a space nor a newline is in the text. -/
theorem seen_of_face (solid : cell.face ≠ ' ') (inner : cell.face ≠ '\n') :
    cell.hidden = false ∧ cell.char = cell.face := by
  unfold Cell.face at solid inner ⊢
  split
  · rename_i covered
    rw [if_pos covered] at solid
    exact absurd rfl solid
  · rename_i seen
    rw [if_neg seen] at inner
    exact ⟨by simpa [inner] using seen, rfl⟩

theorem seen_of_quote (quoted : IsQuote cell.face) :
    cell.hidden = false ∧ cell.char = cell.face :=
  seen_of_face (quote_ne quoted (by decide)) (quote_ne quoted (by decide))

/-- A newline is never hidden. -/
theorem unbroken_of_face (other : cell.face ≠ '\n') : cell.char ≠ '\n' := by
  rintro newline
  exact other (by simp [Cell.face, newline])

/-- A word that is spelled by the faces of cells stands in the text. -/
theorem word_seen {word : List Cell} {letters : List Char} (spelled : word.map Cell.face = letters)
    (solid : ∀ c ∈ letters, c ≠ ' ' ∧ c ≠ '\n') :
    word.map Cell.char = letters ∧ ∀ cell ∈ word, cell.hidden = false := by
  have each : ∀ cell ∈ word, cell.hidden = false ∧ cell.char = cell.face := by
    intro cell among
    obtain ⟨space, newline⟩ := solid cell.face (spelled ▸ List.mem_map_of_mem among)
    exact seen_of_face space newline
  refine ⟨?_, fun cell among => (each cell among).1⟩
  rw [← spelled]
  exact List.map_congr_left fun cell among => (each cell among).2

theorem quote_size (quoted : IsQuote quote) : quote.utf8Size = 1 := by
  rcases quoted with rfl | rfl <;> decide

/-- A quote means the same whatever comes after it. -/
theorem step_quote (quoted : IsQuote quote) (mode : Mode) (next : Option Char) :
    mode.step quote next = mode.step quote none ∧ mode.hides quote next = mode.hides quote none := by
  have slash : quote ≠ '/' := quote_ne quoted (by decide)
  have star : quote ≠ '*' := quote_ne quoted (by decide)
  cases mode <;> simp [Mode.step, Mode.hides, slash, star]

/-- A quote among the cells of a text is a quote in the text that is seen. -/
theorem split_at_quote {offset : Nat} {text : List Char} {outer tail : List Cell}
    (whole : shade mode offset text none = outer ++ cell :: tail) (quoted : IsQuote cell.face) :
    ∃ front quote rest, text = front ++ quote :: rest ∧ IsQuote quote ∧
      outer = shade mode offset front (some quote) ∧
      cell = ⟨quote, offset + Text.byteLength front, false⟩ ∧
      (mode.run front (some quote)).hides quote none = false ∧
      tail = shade ((mode.run front (some quote)).step quote none)
        (offset + Text.byteLength front + quote.utf8Size) rest none := by
  obtain ⟨front, back, rfl, fronts, backs⟩ := parts_of_shade whole
  cases back with
  | nil => cases backs
  | cons quote rest =>
    rw [List.head?_cons, Option.some_or] at backs fronts
    rw [shade] at backs
    obtain ⟨first, tails⟩ := List.cons.inj backs
    obtain ⟨seen, char⟩ := seen_of_quote quoted
    rw [← char, first] at quoted
    rw [first] at seen
    rw [(step_quote quoted _ _).1] at tails
    refine ⟨front, quote, rest, rfl, quoted, fronts, by rw [first, ← seen], ?_, tails⟩
    rw [← (step_quote quoted _ _).2]
    exact seen

/-- A blank escapes nothing that follows it. -/
theorem not_escaped {offset : Nat} {front : List Char} {after : Option Char}
    {outer : List Cell} {blank : Cell} (cells : shade mode offset front after = outer ++ [blank])
    (isBlank : Text.isBlank blank.face = true) (quote : Char) :
    mode.run front after ≠ .escape quote := by
  intro escaped
  have nonempty : front ≠ [] := by
    rintro rfl
    simp [shade] at cells
  obtain ⟨last, inside, backslash⟩ := escaped_by_backslash offset nonempty escaped
  rw [cells, List.getLast?_append] at inside
  obtain rfl : blank = last := by simpa using inside
  rw [backslash] at isBlank
  exact absurd isBlank (by decide)

end Seen

/-- The imports in cells, each with the offset of its keyword. -/
def placedIn (before : Option Char) (cells : List Cell) : List (Nat × Import) :=
  match cells with
  | [] => []
  | cell :: rest =>
    match _found : if isBoundary before then Import.match? (cell :: rest) else none with
    | some (directive, beyond) => (cell.offset, directive) :: placedIn (some '"') beyond
    | none => placedIn (some cell.face) rest
termination_by cells.length
decreasing_by
  · split at _found
    · exact Import.match?_length _found
    · simp at _found
  · simp

/-- The imports of a source text, each with the offset of its keyword. -/
def placed (text : List Char) : List (Nat × Import) := placedIn none (cells false text)

section Scan
variable {before : Option Char} {cell : Cell} {cells beyond : List Cell} {directive : Import}

private theorem placed_found (boundary : isBoundary before = true)
    (found : Import.match? (cell :: cells) = some (directive, beyond)) :
    placedIn before (cell :: cells) = (cell.offset, directive) :: placedIn (some '"') beyond := by
  rw [placedIn]
  split
  · rename_i found'
    rw [if_pos boundary, found] at found'
    obtain ⟨rfl, rfl⟩ := Prod.mk.inj (Option.some.inj found')
    rfl
  · rename_i missed
    rw [if_pos boundary, found] at missed
    cases missed

private theorem placed_passed
    (missed : (if isBoundary before then Import.match? (cell :: cells) else none) = none) :
    placedIn before (cell :: cells) = placedIn (some cell.face) cells := by
  rw [placedIn]
  split
  · rename_i found
    cases missed.symm.trans found
  · rfl

private theorem imports_of_placed_in (before : Option Char) (cells : List Cell) :
    (placedIn before cells).map Prod.snd = Import.scanCells before cells := by
  fun_induction placedIn before cells with
  | case1 before => rw [Import.scanCells]; rfl
  | case2 before cell rest directive beyond found ih =>
    split at found
    · rename_i boundary
      rw [scan_found boundary found, List.map_cons, ih]
    · cases found
  | case3 before cell rest missed ih => rw [scan_passed missed, ih]

/-- The imports are those that the scan finds, in order. -/
theorem imports_of_placed (text : List Char) : (placed text).map Prod.snd = Import.scan text :=
  imports_of_placed_in none (cells false text)

end Scan

/-- The letters that a directive starts with. -/
def keyword : List Char := ['i', 'm', 'p', 'o', 'r', 't']

/-- How an import lies in a text that is read from a mode on: `front` reaches from its keyword to the
quote before its path. -/
structure Lies (mode : Mode) (offset : Nat) (front : List Char) (quote : Char) (path : List Char)
    (directive : Import) : Prop where
  spelled : keyword <+: front
  begins : mode.hides 'i' (some 'm') = false
  quoted : IsQuote quote
  free : ∀ outer, mode.run front (some quote) ≠ .escape outer
  opened : (mode.run front (some quote)).hides quote none = false
  /-- The path as it is seen has neither a quote of its own kind nor a newline in it. -/
  inside : ∀ cell ∈ shade ((mode.run front (some quote)).step quote none)
    (offset + Text.byteLength (front ++ [quote])) path (some quote),
    cell.face ≠ quote ∧ cell.face ≠ '\n'
  closed : (((mode.run front (some quote)).step quote none).run path (some quote)).hides quote none =
    false
  eq : directive = ⟨String.ofList path, ⟨offset + Text.byteLength (front ++ [quote]),
    offset + Text.byteLength (front ++ [quote]) + Text.byteLength path⟩⟩

/-- The state after an import. -/
def past (mode : Mode) (front : List Char) (quote : Char) (path : List Char) : Mode :=
  (((mode.run front (some quote)).step quote none).run path (some quote)).step quote none

/-- What a scan comes by on its way through a text that is read from a mode on: characters at which
no import starts, and imports. -/
inductive Scans : Mode → Nat → Option Char → List Char → List (Nat × Import) → Prop where
  | done {mode : Mode} {offset : Nat} {before : Option Char} : Scans mode offset before [] []
  | pass {mode : Mode} {offset : Nat} {before : Option Char} {c : Char} {text : List Char}
      {found : List (Nat × Import)}
      (missed : (if isBoundary before then
        Import.match? (shade mode offset (c :: text) none) else none) = none)
      (tail : Scans (mode.step c (text.head?.or none)) (offset + c.utf8Size)
        (some (Cell.mk c offset (mode.hides c (text.head?.or none))).face) text found) :
      Scans mode offset before (c :: text) found
  | found {mode : Mode} {offset : Nat} {before : Option Char} {front path rest : List Char}
      {quote : Char} {directive : Import} {found : List (Nat × Import)}
      (boundary : isBoundary before = true)
      (matched : Import.match? (shade mode offset (front ++ (quote :: (path ++ quote :: rest))) none) =
        some (directive, shade (past mode front quote path)
          (offset + Text.byteLength (front ++ (quote :: (path ++ [quote])))) rest none))
      (lies : Lies mode offset front quote path directive)
      (tail : Scans (past mode front quote path)
        (offset + Text.byteLength (front ++ (quote :: (path ++ [quote])))) (some '"') rest found) :
      Scans mode offset before (front ++ (quote :: (path ++ quote :: rest)))
        ((offset, directive) :: found)

section Places
variable {mode : Mode} {offset : Nat} {text : List Char} {directive : Import} {beyond : List Cell}

/-- A directive that cells start with lies in the text. -/
theorem lies_of_match (found : Import.match? (shade mode offset text none) = some (directive, beyond)) :
    ∃ front quote path rest, text = front ++ (quote :: (path ++ quote :: rest)) ∧
      Lies mode offset front quote path directive ∧
      beyond = shade (past mode front quote path)
        (offset + Text.byteLength (front ++ (quote :: (path ++ [quote])))) rest none := by
  obtain ⟨word, lead, blank, opening, inside, closing, whole, spelled, isBlank, quoted, closed, goesOn,
    rfl⟩ := layout_of_match found
  -- The cells of each part are what the machine makes of that part of the text.
  obtain ⟨front, quote, tail, rfl, isQuote, fronts, rfl, opened, tails⟩ :=
    split_at_quote whole quoted
  obtain ⟨path, quote', rest, rfl, -, rfl, rfl, closed', rfl⟩ :=
    split_at_quote tails.symm (by rw [closed]; exact quoted)
  obtain rfl : quote' = quote := by simpa [Cell.face] using closed
  obtain ⟨letters, visible⟩ := word_seen spelled (by simp)
  have start : front = keyword ++ (lead ++ [blank]).map Cell.char := by
    rw [← map_char_shade mode offset front (some quote'), ← fronts, List.append_assoc,
      List.map_append, letters]
    rfl
  have faced : (Cell.mk quote' (offset + Text.byteLength front) false).face = quote' := rfl
  have length : offset + Text.byteLength (front ++ [quote']) =
      offset + Text.byteLength front + quote'.utf8Size := by
    simp only [byte_length_append, Text.byteLength]
    omega
  refine ⟨front, quote', path, rest, rfl, ⟨?_, ?_, isQuote, not_escaped fronts.symm isBlank, opened, ?_,
    closed', ?_⟩, ?_⟩
  · exact ⟨_, start.symm⟩
  · rw [start] at fronts
    obtain ⟨first, others, rfl, -⟩ := List.map_eq_cons_iff.mp letters
    obtain rfl : first = ⟨'i', offset, mode.hides 'i' (some 'm')⟩ := (List.cons.inj fronts).1
    exact visible _ (List.mem_cons_self ..)
  · rw [length, ← faced]
    exact goesOn
  · rw [map_char_shade, length, quote_size isQuote]
  · have whole : offset + Text.byteLength (front ++ (quote' :: (path ++ [quote']))) =
        offset + Text.byteLength front + quote'.utf8Size + Text.byteLength path + quote'.utf8Size := by
      simp only [byte_length_append, Text.byteLength]
      omega
    rw [whole, past]

/-- The way of the scan through a text. -/
theorem scans_of_shade (mode : Mode) (offset : Nat) (before : Option Char) (text : List Char) :
    Scans mode offset before text (placedIn before (shade mode offset text none)) := by
  match text with
  | [] =>
    rw [shade, placedIn]
    exact .done
  | c :: tail =>
    cases found : (if isBoundary before then
        Import.match? (shade mode offset (c :: tail) none) else none) with
    | none =>
      have missed := found
      rw [shade] at missed
      rw [shade, placed_passed missed]
      exact .pass found (scans_of_shade _ _ _ tail)
    | some result =>
      obtain ⟨directive, beyond⟩ := result
      have boundary : isBoundary before = true := by
        by_contra inside
        rw [if_neg inside] at found
        cases found
      rw [if_pos boundary] at found
      have placed : placedIn before (shade mode offset (c :: tail) none) =
          (offset, directive) :: placedIn (some '"') beyond := by
        rw [shade] at found ⊢
        exact placed_found boundary found
      obtain ⟨front, quote, path, rest, whole, lies, rfl⟩ := lies_of_match found
      have shorter : rest.length < (c :: tail).length := by
        rw [whole]
        simp only [List.length_append, List.length_cons]
        omega
      rw [placed, whole]
      exact .found boundary (whole ▸ found) lies (scans_of_shade _ _ _ rest)
termination_by text.length
decreasing_by
  · simp
  · exact shorter

/-- The way of the scan through a source text, which is code in the beginning. -/
theorem scans_of_text (text : List Char) : Scans .code 0 none text (placed text) := by
  have scans := scans_of_shade .code 0 none text
  rwa [← cells_eq_shade] at scans

/-- The state after an import is the one after its characters, whatever comes next. -/
theorem run_past {front path : List Char} {quote : Char} (quoted : IsQuote quote) (mode : Mode)
    (after : Option Char) :
    mode.run (front ++ (quote :: (path ++ [quote]))) after = past mode front quote path := by
  rw [run_append, List.head?_cons, Option.some_or, Mode.run, (step_quote quoted _ _).1, run_append,
    List.head?_cons, Option.some_or, Mode.run, (step_quote quoted _ _).1]
  rfl

/-- Each import that a scan comes by lies in the text, read in the state that the text before its
keyword leads to. -/
theorem lies_of_scans {before : Option Char} {found : List (Nat × Import)} {start : Nat}
    (scans : Scans mode offset before text found) (among : (start, directive) ∈ found) :
    ∃ lead front quote path rest, text = lead ++ (front ++ (quote :: (path ++ quote :: rest))) ∧
      start = offset + Text.byteLength lead ∧
      Lies (mode.run lead (some 'i')) start front quote path directive := by
  -- What follows the text before an import is its keyword.
  have next {front rest : List Char} (spelled : keyword <+: front) :
      (front ++ rest).head? = some 'i' := by
    obtain ⟨letters, rfl⟩ := spelled
    rfl
  induction scans with
  | done => cases among
  | @pass mode offset before c text found missed tail ih =>
    obtain ⟨lead, front, quote, path, rest, rfl, rfl, lies⟩ := ih among
    refine ⟨c :: lead, front, quote, path, rest, rfl, by rw [Text.byteLength, Nat.add_assoc], ?_⟩
    rwa [List.head?_append, next lies.spelled, Option.or_none] at lies
  | @found mode offset before front path rest quote other found boundary matched lies tail ih =>
    rcases List.mem_cons.mp among with own | among
    · obtain ⟨rfl, rfl⟩ := Prod.mk.inj own
      exact ⟨[], front, quote, path, rest, rfl, rfl, lies⟩
    · obtain ⟨lead, front', quote', path', rest', rfl, rfl, lies'⟩ := ih among
      refine ⟨front ++ (quote :: (path ++ [quote])) ++ lead, front', quote', path', rest', by simp,
        by rw [byte_length_append _ lead, Nat.add_assoc], ?_⟩
      rwa [run_append, run_past lies.quoted]

end Places

end ContractBuild.ImportPlaces
