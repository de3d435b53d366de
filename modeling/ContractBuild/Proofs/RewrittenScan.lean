import ContractBuild.Proofs.ImportPlaces
import ContractBuild.Source.Replace

/-! Rewriting commutes with scanning. When the paths of a text's imports are plain and names take their
places, the scan of the new text finds the same imports in the same order, with the names as their
paths. The comments and literals around them stay what they were. -/
namespace ContractBuild.RewrittenScan
open ImportPlaces PathWalk RespelledCells Shading Source

section Spans
variable {offset : Nat} {text front back : List Char}

theorem take_bytes_append (front back : List Char) :
    takeBytes (Text.byteLength front) (front ++ back) = front := by
  induction front with
  | nil =>
    cases back with
    | nil => rfl
    | cons c back =>
      have size := c.utf8Size_pos
      simp only [List.nil_append, Text.byteLength, takeBytes]
      rw [if_neg (by omega)]
  | cons c front ih =>
    simp only [List.cons_append, Text.byteLength, takeBytes, Nat.le_add_right, if_true,
      Nat.add_sub_cancel_left, ih]

theorem drop_bytes_append (front back : List Char) :
    dropBytes (Text.byteLength front) (front ++ back) = back := by
  induction front with
  | nil =>
    cases back with
    | nil => rfl
    | cons c back =>
      have size := c.utf8Size_pos
      simp only [List.nil_append, Text.byteLength, dropBytes]
      rw [if_neg (by omega)]
  | cons c front ih =>
    simp only [List.cons_append, Text.byteLength, dropBytes, Nat.le_add_right, if_true,
      Nat.add_sub_cancel_left, ih]

/-- The first span that is replaced starts inside a text or at its end, behind some of it. -/
def StartsWithin (offset : Nat) (text : List Char) (replacements : List (Span × List Char)) :
    Prop :=
  ∀ first ∈ replacements.head?, ∃ front back, text = front ++ back ∧ front ≠ [] ∧
    first.1.start = offset + Text.byteLength front

/-- What is before the first span stays. -/
theorem replace_from_append {start stop : Nat} (between rest : List Char)
    (replacements : List (Span × List Char)) (new : List Char)
    (starts : start = offset + Text.byteLength front)
    (stops : stop = start + Text.byteLength between) :
    replaceSpansFrom offset (front ++ (between ++ rest)) ((⟨start, stop⟩, new) :: replacements) =
      front ++ (new ++ replaceSpansFrom stop rest replacements) := by
  subst starts stops
  simp only [replaceSpansFrom, Nat.add_sub_cancel_left, take_bytes_append, drop_bytes_append,
    List.append_assoc]

/-- A character before the first span stays, and what follows it is replaced as if it stood alone. -/
theorem replace_cons {c : Char} {replacements : List (Span × List Char)}
    (starts : StartsWithin (offset + c.utf8Size) text replacements) :
    replaceSpansFrom offset (c :: text) replacements =
      c :: replaceSpansFrom (offset + c.utf8Size) text replacements := by
  cases replacements with
  | nil => rfl
  | cons first replacements =>
    obtain ⟨front, back, rfl, -, start⟩ := starts first rfl
    have before : first.1.start - offset = Text.byteLength (c :: front) := by
      simp only [Text.byteLength]
      omega
    have after : first.1.start - (offset + c.utf8Size) = Text.byteLength front := by omega
    have taken := take_bytes_append (c :: front) back
    have dropped := drop_bytes_append (c :: front) back
    rw [List.cons_append] at taken dropped
    simp only [replaceSpansFrom, before, after, taken, dropped, take_bytes_append,
      drop_bytes_append, List.cons_append]

/-- The first character stays. -/
theorem head_replaced {replacements : List (Span × List Char)}
    (starts : StartsWithin offset text replacements) :
    (replaceSpansFrom offset text replacements).head? = text.head? := by
  cases replacements with
  | nil => rfl
  | cons first replacements =>
    obtain ⟨front, back, rfl, nonempty, start⟩ := starts first rfl
    have before : first.1.start - offset = Text.byteLength front := by omega
    obtain ⟨c, front, rfl⟩ := List.exists_cons_of_ne_nil nonempty
    rw [replaceSpansFrom, before, take_bytes_append]
    rfl

end Spans

section Quoted
variable {mode : Mode} {quote : Char} {text rest : List Char}

/-- The cells of a plain text between quotes of which nothing is hidden. -/
def literalOf (quoted : IsQuote quote) (offset : Nat) (plain : ∀ c ∈ text, isPlain c = true) :
    Literal where
  opening := ⟨quote, offset, false⟩
  inside := Cell.ofChars false (offset + quote.utf8Size) text
  closing := ⟨quote, offset + quote.utf8Size + Text.byteLength text, false⟩
  quoted := quoted
  closed := rfl
  plain := by
    have faces : ∀ (offset : Nat) (text : List Char),
        (∀ c ∈ text, isPlain c = true) → ∀ cell ∈ Cell.ofChars false offset text,
          isPlain cell.face = true := by
      intro offset text plain
      induction text generalizing offset with
      | nil => simp [Cell.ofChars]
      | cons c text ih =>
        intro cell inside
        rcases List.mem_cons.mp inside with rfl | inside
        · exact plain c (by simp)
        · exact ih _ (fun c inside => plain c (List.mem_cons_of_mem _ inside)) cell inside
    exact faces _ text plain

theorem same_quotes {text' : List Char} (quoted : IsQuote quote) (offset offset' : Nat)
    (plain : ∀ c ∈ text, isPlain c = true) (plain' : ∀ c ∈ text', isPlain c = true) :
    (literalOf quoted offset' plain').opening.face = (literalOf quoted offset plain).opening.face :=
  rfl

theorem map_char_of_chars (hidden : Bool) (offset : Nat) (text : List Char) :
    (Cell.ofChars hidden offset text).map Cell.char = text := by
  induction text generalizing offset with
  | nil => rfl
  | cons c text ih => simp [Cell.ofChars, ih]

theorem text_of_literal (quoted : IsQuote quote) (offset : Nat)
    (plain : ∀ c ∈ text, isPlain c = true) :
    (literalOf quoted offset plain).text = String.ofList text := by
  rw [Literal.text, literalOf, map_char_of_chars]

/-- A quiet text between two quotes that are seen is a literal; what follows it is read in the state
that the quotes alone lead to. -/
theorem shade_quoted (quoted : IsQuote quote) (plain : ∀ c ∈ text, isPlain c = true)
    (opened : mode.hides quote none = false)
    (quiet : Quiet (mode.step quote none) text (some quote))
    (closed : (mode.step quote none).hides quote none = false) (offset : Nat) (rest : List Char) :
    shade mode offset (quote :: (text ++ quote :: rest)) none =
      (literalOf quoted offset plain).opening :: ((literalOf quoted offset plain).inside ++
        (literalOf quoted offset plain).closing ::
          shade ((mode.step quote none).step quote none)
            (offset + quote.utf8Size + Text.byteLength text + quote.utf8Size) rest none) := by
  rw [shade, (step_quote quoted mode _).1, (step_quote quoted mode _).2, opened, shade_append,
    List.head?_cons, Option.some_or, quiet.visible, quiet.stays, shade,
    (step_quote quoted (mode.step quote none) (rest.head?.or none)).1,
    (step_quote quoted (mode.step quote none) (rest.head?.or none)).2, closed]
  rfl

/-- Behind the front of a text, a plain text between two quotes that are seen, which does nothing to
what follows. -/
structure Enclosed (mode : Mode) (front : List Char) (quote : Char) (text : List Char) : Prop where
  quoted : IsQuote quote
  plain : ∀ c ∈ text, isPlain c = true
  opened : (mode.run front (some quote)).hides quote none = false
  quiet : Quiet ((mode.run front (some quote)).step quote none) text (some quote)
  closed : ((mode.run front (some quote)).step quote none).hides quote none = false

/-- A text with a literal in it, and the text that follows the literal. -/
theorem shade_import {front : List Char} (enclosed : Enclosed mode front quote text)
    {offset : Nat} :
    shade mode offset (front ++ (quote :: (text ++ quote :: rest))) none =
      shade mode offset front (some quote) ++
        (literalOf enclosed.quoted (offset + Text.byteLength front) enclosed.plain).opening ::
          ((literalOf enclosed.quoted (offset + Text.byteLength front) enclosed.plain).inside ++
            (literalOf enclosed.quoted (offset + Text.byteLength front) enclosed.plain).closing ::
              shade (((mode.run front (some quote)).step quote none).step quote none)
                (offset + Text.byteLength (front ++ (quote :: (text ++ [quote])))) rest none) := by
  have length : offset + Text.byteLength (front ++ (quote :: (text ++ [quote]))) =
      offset + Text.byteLength front + quote.utf8Size + Text.byteLength text +
        quote.utf8Size := by
    simp only [byte_length_append, Text.byteLength]
    omega
  rw [shade_append, List.head?_cons, Option.some_or,
    shade_quoted enclosed.quoted enclosed.plain enclosed.opened enclosed.quiet enclosed.closed,
    length]

/-- A name that takes the place of the text in the first literal that is replaced. -/
theorem replace_import {front : List Char} {offset : Nat} (name : List Char)
    {replacements : List (Span × List Char)}
    (starts : StartsWithin (offset + Text.byteLength (front ++ (quote :: (text ++ [quote])))) rest
      replacements) :
    replaceSpansFrom offset (front ++ (quote :: (text ++ quote :: rest)))
        ((⟨offset + Text.byteLength (front ++ [quote]),
          offset + Text.byteLength (front ++ [quote]) + Text.byteLength text⟩, name) ::
          replacements) =
      front ++ (quote :: (name ++ quote :: replaceSpansFrom
        (offset + Text.byteLength (front ++ (quote :: (text ++ [quote])))) rest replacements)) := by
  have stop : offset + Text.byteLength (front ++ [quote]) + Text.byteLength text +
      quote.utf8Size = offset + Text.byteLength (front ++ (quote :: (text ++ [quote]))) := by
    simp only [byte_length_append, Text.byteLength]
    omega
  have split : front ++ (quote :: (text ++ quote :: rest)) =
      (front ++ [quote]) ++ (text ++ quote :: rest) := by simp
  rw [split, replace_from_append text (quote :: rest) replacements name rfl rfl,
    replace_cons (by rw [stop]; exact starts), stop]
  simp

end Quoted

section Respelling

/-- A text that goes on looking alike at another offset. -/
theorem kept_pieces (mode : Mode) (offset offset' : Nat) (text : List Char) (after : Option Char) :
    ∃ pieces, oldCells pieces = shade mode offset text after ∧
      newCells pieces = shade mode offset' text after := by
  induction text generalizing mode offset offset' with
  | nil => exact ⟨[], rfl, rfl⟩
  | cons c text ih =>
    obtain ⟨pieces, old, new⟩ := ih (mode.step c (text.head?.or after)) (offset + c.utf8Size)
      (offset' + c.utf8Size)
    exact ⟨.keep ⟨c, offset, mode.hides c (text.head?.or after)⟩
      ⟨c, offset', mode.hides c (text.head?.or after)⟩ (by simp [Cell.face]) :: pieces,
      by rw [old_keep, old, shade], by rw [new_keep, new, shade]⟩

/-- A plain path lies between its quotes so that it can give way to any plain text without slashes. -/
theorem enclosed_of_lies {mode : Mode} (proper : mode.Proper) {offset : Nat} {front path : List Char}
    {quote : Char} {directive : Import} (lies : Lies mode offset front quote path directive)
    (plain : ∀ c ∈ path, isPlain c = true) :
    past mode front quote path = ((mode.run front (some quote)).step quote none).step quote none ∧
      Enclosed mode front quote path ∧
      ∀ name, (∀ c ∈ name, isPlain c = true) → '/' ∉ name → Enclosed mode front quote name := by
  have quiet : ∀ name : List Char, (∀ c ∈ name, isPlain c = true) → '/' ∉ name →
      Quiet ((mode.run front (some quote)).step quote none) path (some quote) ∧
        Quiet ((mode.run front (some quote)).step quote none) name (some quote) :=
    fun name fits whole => quiet_between_quotes (proper_run proper front (some quote)) lies.free
      lies.quoted lies.opened plain lies.closed fits whole
  have own : Quiet ((mode.run front (some quote)).step quote none) path (some quote) :=
    (quiet [] (by simp) (by simp)).1
  have closed := lies.closed
  rw [own.stays] at closed
  exact ⟨by rw [past, own.stays], ⟨lies.quoted, plain, lies.opened, own, closed⟩,
    fun name fits whole => ⟨lies.quoted, fits, lies.opened, (quiet name fits whole).2, closed⟩⟩

/-- What takes the places of the paths of a text's imports. -/
def replacements (mode : Mode) (offset : Nat) (text : List Char) (before : Option Char)
    (names : List (List Char)) : List (Span × List Char) :=
  ((Import.scanCells before (shade mode offset text none)).map Import.span).zip names

/-- A text is respelled when names take the places of the paths of its imports. -/
structure Respells (mode : Mode) (offset offset' : Nat) (text : List Char) (before : Option Char)
    (names : List (List Char)) : Prop where
  starts : StartsWithin offset text (replacements mode offset text before names)
  spelled : ∃ pieces, Respelled before pieces (names.map String.ofList) ∧
    oldCells pieces = shade mode offset text none ∧
    newCells pieces = shade mode offset'
      (replaceSpansFrom offset text (replacements mode offset text before names)) none

section Steps
variable {mode : Mode} {offset offset' : Nat} {before : Option Char} {names : List (List Char)}

theorem respells_nil : Respells mode offset offset' [] before [] := by
  refine ⟨?_, [], .done, rfl, ?_⟩ <;> simp [replacements, StartsWithin, replaceSpansFrom, shade]

/-- A character at which no import starts. -/
theorem respells_pass {c : Char} {text : List Char}
    (missed : (if isBoundary before then
      Import.match? (shade mode offset (c :: text) none) else none) = none)
    (tail : Respells (mode.step c (text.head?.or none)) (offset + c.utf8Size) (offset' + c.utf8Size)
      text (some (Cell.mk c offset (mode.hides c (text.head?.or none))).face) names) :
    Respells mode offset offset' (c :: text) before names := by
  obtain ⟨starts, pieces, respelled, old, new⟩ := tail
  rw [shade] at missed
  have same : replacements mode offset (c :: text) before names =
      replacements (mode.step c (text.head?.or none)) (offset + c.utf8Size) text
        (some (Cell.mk c offset (mode.hides c (text.head?.or none))).face) names := by
    rw [replacements, shade, scan_passed missed, replacements]
  rw [← same] at starts new
  refine ⟨?_, .keep ⟨c, offset, mode.hides c (text.head?.or none)⟩
    ⟨c, offset', mode.hides c (text.head?.or none)⟩ (by simp [Cell.face]) :: pieces, ?_, ?_, ?_⟩
  · intro first among
    obtain ⟨front, back, whole, -, start⟩ := starts first among
    refine ⟨c :: front, back, by rw [whole]; rfl, by simp, ?_⟩
    rw [start, Text.byteLength, Nat.add_assoc]
  · exact .pass (by rw [old_keep, old]; exact missed) respelled
  · rw [old_keep, old, shade]
  · rw [new_keep, new, replace_cons starts, shade, head_replaced starts]

/-- An import whose path gives way to a name. -/
theorem respells_found {front : List Char} {quote : Char} {path name rest : List Char}
    (boundary : isBoundary before = true)
    (found : Import.match? (shade mode offset (front ++ (quote :: (path ++ quote :: rest))) none) =
      some (⟨String.ofList path, ⟨offset + Text.byteLength (front ++ [quote]),
          offset + Text.byteLength (front ++ [quote]) + Text.byteLength path⟩⟩,
        shade (((mode.run front (some quote)).step quote none).step quote none)
          (offset + Text.byteLength (front ++ (quote :: (path ++ [quote])))) rest none))
    (own : Enclosed mode front quote path) (other : Enclosed mode front quote name)
    (tail : Respells (((mode.run front (some quote)).step quote none).step quote none)
      (offset + Text.byteLength (front ++ (quote :: (path ++ [quote]))))
      (offset' + Text.byteLength (front ++ (quote :: (name ++ [quote])))) rest (some '"') names) :
    Respells mode offset offset' (front ++ (quote :: (path ++ quote :: rest))) before
      (name :: names) := by
  obtain ⟨starts, pieces, respelled, old, new⟩ := tail
  obtain ⟨fronts, oldFront, newFront⟩ := kept_pieces mode offset offset' front (some quote)
  have cells : oldCells (fronts ++ .swap _ _ (same_quotes own.quoted
      (offset + Text.byteLength front) (offset' + Text.byteLength front) own.plain other.plain) ::
        pieces) = shade mode offset (front ++ (quote :: (path ++ quote :: rest))) none := by
    rw [shade_import own, old_append, old_swap, oldFront, old]
  have first : replacements mode offset (front ++ (quote :: (path ++ quote :: rest))) before
      (name :: names) = (⟨offset + Text.byteLength (front ++ [quote]),
          offset + Text.byteLength (front ++ [quote]) + Text.byteLength path⟩, name) ::
        replacements (((mode.run front (some quote)).step quote none).step quote none)
          (offset + Text.byteLength (front ++ (quote :: (path ++ [quote])))) rest (some '"')
          names := by
    rw [replacements, scan_found boundary found, List.map_cons, List.zip_cons_cons, replacements]
  refine ⟨?_, _, ?_, cells, ?_⟩
  · intro span among
    rw [first] at among
    obtain rfl := Option.some.inj among
    exact ⟨front ++ [quote], path ++ quote :: rest, by simp, by simp, rfl⟩
  · rw [← old, ← cells] at found
    have long : (String.ofList path).toList.length =
        (literalOf own.quoted (offset + Text.byteLength front) own.plain).inside.length := by
      rw [String.toList_ofList, ← List.length_map Cell.char, literalOf, map_char_of_chars]
    have whole := Respelled.found boundary found long respelled
    rw [text_of_literal] at whole
    exact whole
  · rw [first, replace_import name starts, shade_import other, new_append, new_swap, newFront, new]

end Steps

/-- A text can be respelled so that names take the places of the plain paths of its imports. -/
theorem respelling_exists {mode : Mode} (proper : mode.Proper) (offset offset' : Nat)
    (text : List Char) (before : Option Char) (names : List (List Char))
    (plain : ∀ directive ∈ Import.scanCells before (shade mode offset text none),
      ∀ c ∈ directive.path.toList, isPlain c = true)
    (count : names.length = (Import.scanCells before (shade mode offset text none)).length)
    (fit : ∀ name ∈ names, (∀ c ∈ name, isPlain c = true) ∧ '/' ∉ name) :
    Respells mode offset offset' text before names := by
  have scans := scans_of_shade mode offset before text
  generalize placedIn before (shade mode offset text none) = found at scans
  induction scans generalizing offset' names with
  | done =>
    rw [shade, Import.scanCells] at count
    obtain rfl := List.length_eq_zero_iff.mp count
    exact respells_nil
  | pass missed tail ih =>
    have missed' := missed
    rw [shade] at missed'
    rw [shade, scan_passed missed'] at plain count
    exact respells_pass missed (ih (proper_step proper _ _) _ _ plain count fit)
  | @found mode offset before front path rest quote directive found boundary matched lies tail ih =>
    rw [scan_found boundary matched] at plain count
    obtain ⟨name, names, rfl⟩ := List.exists_cons_of_length_eq_add_one count
    obtain rfl := lies.eq
    obtain ⟨after, own, others⟩ := enclosed_of_lies proper lies
      (by simpa using plain _ (List.mem_cons_self ..))
    obtain ⟨plainName, noSlash⟩ := fit name (List.mem_cons_self ..)
    rw [after] at matched ih plain count
    refine respells_found boundary matched own (others name plainName noSlash) (ih ?_ _ _ ?_ ?_ ?_)
    · exact proper_step (proper_step (proper_run proper front (some quote)) quote none) quote none
    · exact fun directive listed => plain directive (List.mem_cons_of_mem _ listed)
    · simpa using count
    · exact fun name inside => fit name (List.mem_cons_of_mem _ inside)

end Respelling

end ContractBuild.RewrittenScan
