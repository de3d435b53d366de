import ContractBuild.Proofs.RewrittenScan

/-! Rewriting is safe. The spans of a text's imports follow each other without touching, each between
two quotes of one kind and never in the middle of a character. So a rewriting that cuts the text at
them does not fail, exchanges what is in the spans and nothing else, and can be undone. -/
namespace ContractBuild.ImportSpans
open ImportPlaces PathWalk RewrittenScan Shading Source

/-- The part of a text from one byte up to another, if it can be cut there and they are in order. -/
def slice? (text : List Char) (start stop : Nat) : Option (List Char) :=
  if start ≤ stop then
    (Text.cutAt? start text).bind fun (_, back) => (Text.cutAt? (stop - start) back).map Prod.fst
  else none

/-- What is left of a text behind a cursor, with new texts in the place of spans. It fails with the
first part that cannot be taken out of the text. -/
def rewriteFrom? (text : List Char) (cursor : Nat) : List (Span × List Char) → Option (List Char)
  | [] => slice? text cursor (Text.byteLength text)
  | (span, new) :: rest =>
    (slice? text cursor span.start).bind fun kept =>
      (rewriteFrom? text span.stop rest).map fun after => kept ++ (new ++ after)

/-- A text with new texts in the place of spans, put together from parts of it. -/
def rewrite? (text : List Char) (replacements : List (Span × List Char)) : Option (List Char) :=
  rewriteFrom? text 0 replacements

/-- A rewriting gives a text: no part that it takes out is missing, and it is the one that runs. -/
structure Rewrites (text : List Char) (replacements : List (Span × List Char)) (new : List Char) :
    Prop where
  taken : rewrite? text replacements = some new
  runs : replaceSpans text replacements = new

/-- Gaps and what fills them in turns, and what comes after them. -/
def weave : (gaps fillings : List (List Char)) → (tail : List Char) → List Char
  | gap :: gaps, filling :: fillings, tail => gap ++ (filling ++ weave gaps fillings tail)
  | _, _, tail => tail

/-- Where the fillings of a text that starts at an offset stand. -/
def places (offset : Nat) : (gaps fillings : List (List Char)) → List Span
  | gap :: gaps, filling :: fillings =>
    let start := offset + Text.byteLength gap
    ⟨start, start + Text.byteLength filling⟩ :: places (start + Text.byteLength filling) gaps fillings
  | _, _ => []

/-- Where the new texts stand when spans have been replaced. What is told of the old text reaches to
`before`, and what is told of the new one to `after`. -/
def shiftedFrom (before after : Nat) : List (Span × List Char) → List Span
  | [] => []
  | (span, new) :: rest =>
    let start := after + (span.start - before)
    ⟨start, start + Text.byteLength new⟩ ::
      shiftedFrom span.stop (start + Text.byteLength new) rest

/-- Where the new texts stand when spans of a text have been replaced. -/
def shifted (replacements : List (Span × List Char)) : List Span := shiftedFrom 0 0 replacements

theorem slice_append (front middle back : List Char) :
    slice? (front ++ (middle ++ back)) (Text.byteLength front)
      (Text.byteLength front + Text.byteLength middle) = some middle := by
  rw [slice?, if_pos (Nat.le_add_right ..), Text.cutAt?_append, Option.bind_some]
  dsimp only
  rw [Nat.add_sub_cancel_left, Text.cutAt?_append]
  rfl

section Weaving
variable {gaps olds news : List (List Char)}

@[simp] theorem weave_nil (fillings : List (List Char)) (tail : List Char) :
    weave [] fillings tail = tail := rfl

@[simp] theorem weave_cons (gap filling : List Char) (gaps fillings : List (List Char))
    (tail : List Char) : weave (gap :: gaps) (filling :: fillings) tail =
      gap ++ (filling ++ weave gaps fillings tail) := rfl

@[simp] theorem places_nil (offset : Nat) (fillings : List (List Char)) :
    places offset [] fillings = [] := rfl

@[simp] theorem places_cons (offset : Nat) (gap filling : List Char)
    (gaps fillings : List (List Char)) : places offset (gap :: gaps) (filling :: fillings) =
      ⟨offset + Text.byteLength gap,
        offset + Text.byteLength gap + Text.byteLength filling⟩ ::
      places (offset + Text.byteLength gap + Text.byteLength filling) gaps fillings := rfl

/-- Exchanging what fills the gaps leaves the gaps as they are. -/
theorem replace_weave (offset : Nat) (tail : List Char) (before : olds.length = gaps.length)
    (after : news.length = gaps.length) :
    replaceSpansFrom offset (weave gaps olds tail) ((places offset gaps olds).zip news) =
      weave gaps news tail := by
  induction gaps generalizing offset olds news with
  | nil => rfl
  | cons gap gaps ih =>
    obtain ⟨old, olds, rfl⟩ := List.exists_cons_of_length_eq_add_one before
    obtain ⟨new, news, rfl⟩ := List.exists_cons_of_length_eq_add_one after
    rw [weave_cons, places_cons, List.zip_cons_cons, weave_cons,
      replace_from_append old _ _ new rfl rfl, ih _ (Nat.succ.inj before) (Nat.succ.inj after)]

/-- No part of the text that a rewriting takes out is missing. -/
theorem rewrite_weave (front tail : List Char) (before : olds.length = gaps.length)
    (after : news.length = gaps.length) :
    rewriteFrom? (front ++ weave gaps olds tail) (Text.byteLength front)
      ((places (Text.byteLength front) gaps olds).zip news) = some (weave gaps news tail) := by
  induction gaps generalizing front olds news with
  | nil =>
    have whole := slice_append front tail []
    rw [List.append_nil] at whole
    rw [weave_nil, weave_nil, places_nil, List.zip_nil_left, rewriteFrom?, byte_length_append, whole]
  | cons gap gaps ih =>
    obtain ⟨old, olds, rfl⟩ := List.exists_cons_of_length_eq_add_one before
    obtain ⟨new, news, rfl⟩ := List.exists_cons_of_length_eq_add_one after
    have rest := ih (front ++ (gap ++ old)) (Nat.succ.inj before) (Nat.succ.inj after)
    simp only [byte_length_append, List.append_assoc, ← Nat.add_assoc] at rest
    rw [weave_cons, places_cons, List.zip_cons_cons, rewriteFrom?, slice_append, Option.bind_some,
      rest, weave_cons]
    rfl

/-- The new fillings stand where the shift of the old ones leads to. -/
theorem shifted_places (offset offset' : Nat) (before : olds.length = gaps.length)
    (after : news.length = gaps.length) :
    shiftedFrom offset offset' ((places offset gaps olds).zip news) = places offset' gaps news := by
  induction gaps generalizing offset offset' olds news with
  | nil => rfl
  | cons gap gaps ih =>
    obtain ⟨old, olds, rfl⟩ := List.exists_cons_of_length_eq_add_one before
    obtain ⟨new, news, rfl⟩ := List.exists_cons_of_length_eq_add_one after
    rw [places_cons, List.zip_cons_cons, shiftedFrom, places_cons, Nat.add_sub_cancel_left,
      ih _ _ (Nat.succ.inj before) (Nat.succ.inj after)]

/-- A woven text is rewritten to one with other fillings in the same gaps. -/
theorem rewrites_weave (tail : List Char) (before : olds.length = gaps.length)
    (after : news.length = gaps.length) :
    Rewrites (weave gaps olds tail) ((places 0 gaps olds).zip news) (weave gaps news tail) :=
  ⟨rewrite_weave [] tail before after, replace_weave 0 tail before after⟩

end Weaving

/-- Each filling is on one line and between two quotes of one kind, which belong to the gaps. -/
def Framed : (gaps fillings : List (List Char)) → (tail : List Char) → Prop
  | gap :: gaps, filling :: fillings, tail =>
    '\n' ∉ filling ∧
      (∃ quote, IsQuote quote ∧ gap.getLast? = some quote ∧
        (weave gaps fillings tail).head? = some quote) ∧
      Framed gaps fillings tail
  | _, _, _ => True

/-- A text that starts at an offset is woven of gaps and the paths of its imports. -/
structure Woven (offset : Nat) (text : List Char) (imports : List Import)
    (gaps : List (List Char)) (tail : List Char) : Prop where
  count : gaps.length = imports.length
  whole : text = weave gaps (imports.map fun directive => directive.path.toList) tail
  placed : imports.map Import.span =
    places offset gaps (imports.map fun directive => directive.path.toList)
  framed : Framed gaps (imports.map fun directive => directive.path.toList) tail

/-- An import stands in a text: its path is what is in its span, on one line and between two quotes of
one kind. -/
structure StandsIn (text : List Char) (directive : Import) : Prop where
  path : slice? text directive.span.start directive.span.stop = some directive.path.toList
  unbroken : '\n' ∉ directive.path.toList
  quoted : ∃ quote, IsQuote quote ∧
    slice? text (directive.span.start - 1) directive.span.start = some [quote] ∧
    slice? text directive.span.stop (directive.span.stop + 1) = some [quote]

section Woven
variable {mode : Mode} {offset : Nat} {before : Option Char} {text front tail : List Char}
  {imports : List Import} {gaps : List (List Char)} {found : List (Nat × Import)}

theorem woven_nil (offset : Nat) : Woven offset [] [] [] [] := ⟨rfl, rfl, rfl, trivial⟩

/-- A character before a woven text belongs to its first gap. -/
theorem woven_cons {c : Char} (woven : Woven (offset + c.utf8Size) text imports gaps tail) :
    ∃ gaps tail, Woven offset (c :: text) imports gaps tail := by
  obtain ⟨count, whole, placed, framed⟩ := woven
  cases gaps with
  | nil =>
    obtain rfl := List.length_eq_zero_iff.mp count.symm
    exact ⟨[], c :: tail, rfl, by rw [whole]; rfl, rfl, trivial⟩
  | cons gap gaps =>
    obtain ⟨directive, imports, rfl⟩ := List.exists_cons_of_length_eq_add_one count.symm
    have length : offset + c.utf8Size + Text.byteLength gap =
        offset + Text.byteLength (c :: gap) := by
      rw [Text.byteLength, Nat.add_assoc]
    simp only [List.map_cons, places_cons, length] at placed
    obtain ⟨unbroken, ⟨quote, quoted, last, next⟩, rest⟩ := framed
    refine ⟨(c :: gap) :: gaps, tail, count, by rw [whole]; rfl, by simpa using placed, unbroken,
      ⟨quote, quoted, ?_, next⟩, rest⟩
    rw [List.getLast?_cons, last]
    rfl

/-- The path of an import is on one line. -/
private theorem path_unbroken {path : List Char} {quote : Char} {directive : Import}
    (lies : Lies mode offset front quote path directive) : '\n' ∉ path := by
  intro newline
  rw [← map_char_shade ((mode.run front (some quote)).step quote none)
    (offset + Text.byteLength (front ++ [quote])) path (some quote)] at newline
  obtain ⟨cell, among, char⟩ := List.mem_map.mp newline
  exact unbroken_of_face (lies.inside cell among).2 char

/-- What a scan comes by is woven of the imports that it finds. -/
theorem woven_of_scans (scans : Scans mode offset before text found) :
    ∃ gaps tail, Woven offset text (found.map Prod.snd) gaps tail := by
  induction scans with
  | done => exact ⟨[], [], woven_nil _⟩
  | pass missed tail ih =>
    obtain ⟨gaps, tail, woven⟩ := ih
    exact woven_cons woven
  | @found mode offset before front path rest quote directive found boundary matched lies scans ih =>
    obtain ⟨gaps, tail, woven⟩ := ih
    have length : offset + Text.byteLength (front ++ (quote :: (path ++ [quote]))) =
        offset + Text.byteLength (front ++ [quote]) + Text.byteLength path + quote.utf8Size := by
      simp only [byte_length_append, Text.byteLength]
      omega
    rw [length] at woven
    -- The quote behind the path belongs to the next gap.
    obtain ⟨gaps, tail, count, whole, placed, framed⟩ := woven_cons woven
    refine ⟨(front ++ [quote]) :: gaps, tail, congrArg (· + 1) count, ?_, ?_, ?_, ?_, framed⟩
    · rw [List.map_cons, List.map_cons, weave_cons, ← whole, lies.eq]
      simp
    · simp [lies.eq, placed]
    · simpa [lies.eq] using path_unbroken lies
    · exact ⟨quote, lies.quoted, by simp, by rw [← whole]; rfl⟩

/-- A filling between two quotes stands in a text that it is a part of. -/
theorem stands_between {quote : Char} {directive : Import} (lead back : List Char)
    (quoted : IsQuote quote) (unbroken : '\n' ∉ directive.path.toList)
    (starts : directive.span.start = Text.byteLength lead + 1)
    (stops : directive.span.stop = directive.span.start + Text.byteLength directive.path.toList) :
    StandsIn (lead ++ (quote :: (directive.path.toList ++ quote :: back))) directive := by
  have one : Text.byteLength [quote] = 1 := quote_size quoted
  refine ⟨?_, unbroken, quote, quoted, ?_, ?_⟩
  · have inner := slice_append (lead ++ [quote]) directive.path.toList (quote :: back)
    rw [byte_length_append, one, ← starts, ← stops] at inner
    simpa using inner
  · have opening := slice_append lead [quote] (directive.path.toList ++ quote :: back)
    rw [one] at opening
    rw [starts, Nat.add_sub_cancel]
    exact opening
  · have closing := slice_append (lead ++ (quote :: directive.path.toList)) [quote] back
    have length : Text.byteLength (lead ++ (quote :: directive.path.toList)) = directive.span.stop := by
      rw [byte_length_append, Text.byteLength, quote_size quoted, stops, starts, Nat.add_assoc]
    rw [one, length] at closing
    simpa using closing

/-- The imports of a woven text stand in any text that it is the end of. -/
theorem stands_of_woven (front : List Char)
    (woven : Woven (Text.byteLength front) text imports gaps tail) :
    ∀ directive ∈ imports, StandsIn (front ++ text) directive := by
  induction imports generalizing front text gaps with
  | nil => simp
  | cons directive imports ih =>
    obtain ⟨count, whole, placed, framed⟩ := woven
    obtain ⟨gap, gaps, rfl⟩ := List.exists_cons_of_length_eq_add_one count
    simp only [List.map_cons, places_cons, List.cons.injEq] at placed
    obtain ⟨span, placed⟩ := placed
    obtain ⟨unbroken, ⟨quote, quoted, last, next⟩, rest⟩ := framed
    obtain ⟨lead, rfl⟩ := List.getLast?_eq_some_iff.mp last
    obtain ⟨back, follows⟩ := List.head?_eq_some_iff.mp next
    rw [List.map_cons, weave_cons] at whole
    intro other among
    rcases List.mem_cons.mp among with rfl | among
    · have stands := stands_between (front ++ lead) back quoted unbroken
        (by simp [span, byte_length_append, Text.byteLength, quote_size quoted, Nat.add_assoc])
        (by simp [span])
      simpa [whole, follows] using stands
    · have length : Text.byteLength (front ++ ((lead ++ [quote]) ++ directive.path.toList)) =
          Text.byteLength front + Text.byteLength (lead ++ [quote]) +
            Text.byteLength directive.path.toList := by
        rw [byte_length_append, byte_length_append, Nat.add_assoc]
      have others := ih (front ++ ((lead ++ [quote]) ++ directive.path.toList))
        ⟨Nat.succ.inj count, rfl, by rw [length]; exact placed, rest⟩ other among
      simpa [whole] using others

/-- No filling stands before the place that the text starts at, and the first gap is not empty. -/
theorem starts_behind (framed : Framed gaps olds tail) (offset : Nat) :
    ∀ span ∈ places offset gaps olds, offset < span.start := by
  induction gaps generalizing offset olds with
  | nil => simp
  | cons gap gaps ih =>
    cases olds with
    | nil => simp [places]
    | cons old olds =>
      obtain ⟨-, ⟨quote, quoted, last, -⟩, rest⟩ := framed
      obtain ⟨lead, rfl⟩ := List.getLast?_eq_some_iff.mp last
      have nonempty : 0 < Text.byteLength (lead ++ [quote]) := by
        simp [byte_length_append, Text.byteLength, quote_size quoted]
      intro span among
      rw [places_cons] at among
      rcases List.mem_cons.mp among with rfl | among
      · exact Nat.lt_add_of_pos_right nonempty
      · exact Nat.lt_of_le_of_lt (by omega) (ih rest _ span among)

/-- The places of fillings are in order, with some of the text between each two. -/
theorem places_apart (framed : Framed gaps olds tail) (offset : Nat) :
    (places offset gaps olds).Pairwise fun span next => span.stop < next.start := by
  induction gaps generalizing offset olds with
  | nil => exact List.Pairwise.nil
  | cons gap gaps ih =>
    cases olds with
    | nil => exact List.Pairwise.nil
    | cons old olds =>
      obtain ⟨-, -, rest⟩ := framed
      rw [places_cons]
      exact List.Pairwise.cons (fun span among => starts_behind rest _ span among) (ih rest _)

end Woven

/-- Where the paths of the imports of a text stand. -/
def spans (text : List Char) : List Span := (Import.scan text).map Import.span

/-- What the imports of a text name. -/
def paths (text : List Char) : List (List Char) :=
  (Import.scan text).map fun directive => directive.path.toList

/-- The imports of every text stand in it one behind the other, and every rewriting of them succeeds.
It leaves what is around their paths as it is, gives the text back if each path is replaced by itself,
and is undone by putting the old paths where the new ones stand. -/
theorem imports_rewritten_safely (text : List Char) :
    (∀ directive ∈ Import.scan text, StandsIn text directive) ∧
    (spans text).Pairwise (fun span next => span.stop < next.start) ∧
    Rewrites text ((spans text).zip (paths text)) text ∧
    ∃ gaps tail, gaps.length = (Import.scan text).length ∧ text = weave gaps (paths text) tail ∧
      spans text = places 0 gaps (paths text) ∧
      ∀ news : List (List Char), news.length = (Import.scan text).length →
        Rewrites text ((spans text).zip news) (weave gaps news tail) ∧
        shifted ((spans text).zip news) = places 0 gaps news ∧
        Rewrites (weave gaps news tail) ((shifted ((spans text).zip news)).zip (paths text)) text := by
  obtain ⟨gaps, tail, woven⟩ := woven_of_scans (scans_of_text text)
  rw [imports_of_placed] at woven
  have stands := stands_of_woven [] woven
  obtain ⟨count, whole, placed, framed⟩ := woven
  have olds : (paths text).length = gaps.length := by rw [count, paths, List.length_map]
  have placed : spans text = places 0 gaps (paths text) := placed
  have exchanged (news : List (List Char)) (length : news.length = gaps.length) :
      Rewrites text ((spans text).zip news) (weave gaps news tail) := by
    have rewrites := rewrites_weave tail olds length
    rwa [← placed, paths, ← whole] at rewrites
  refine ⟨stands, ?_, ?_, gaps, tail, count, whole, placed, fun news length => ?_⟩
  · rw [placed]
    exact places_apart framed 0
  · have same := exchanged (paths text) olds
    rwa [paths, ← whole] at same
  · rw [← count] at length
    have moved : shifted ((spans text).zip news) = places 0 gaps news := by
      rw [placed, shifted, shifted_places 0 0 olds length]
    refine ⟨exchanged news length, moved, ?_⟩
    have back := rewrites_weave tail length olds
    rwa [← moved, paths, ← whole] at back

/-- A text with two imports behind a comment that has a character of two bytes. -/
def twoImports : List Char := "/*é*/import \"a.sol\";import 'b'".toList

/-- The two imports get names of other lengths and their old ones back. -/
theorem two_imports_rewritten :
    ["library/a.sol".toList, []].length = (Import.scan twoImports).length ∧
    ∃ new, Rewrites twoImports ((spans twoImports).zip ["library/a.sol".toList, []]) new ∧
      Rewrites new ((shifted ((spans twoImports).zip ["library/a.sol".toList, []])).zip
        (paths twoImports)) twoImports := by
  have length : ["library/a.sol".toList, []].length = (Import.scan twoImports).length := by
    decide +kernel
  obtain ⟨-, -, -, gaps, tail, -, -, -, each⟩ := imports_rewritten_safely twoImports
  obtain ⟨rewrites, -, back⟩ := each _ length
  exact ⟨length, _, rewrites, back⟩

end ContractBuild.ImportSpans
