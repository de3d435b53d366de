import ContractBuild.Proofs.RewrittenScan
import ContractBuild.Proofs.SourcePieces

/-! Imports that are written out are found. A document is made of import directives in their forms, with
code, comments and literals around them; a scan of its text finds the paths of the directives, in order
and where they stand, and no other. -/
namespace ContractBuild.RenderedImports
open RespelledCells (afterName? afterList? after_names_cons literal_read scan_found scan_passed)
open PathWalk (byte_length_append)
open ImportPlaces (quote_size step_quote word_spelled)
open Shading Source SourcePieces

/-- Blanks and comments between two words, at least one of them. -/
structure Gap where
  pieces : List Piece
  complete : ∀ piece ∈ pieces, piece.Complete
  separates : ∀ piece ∈ pieces, piece.Separates
  nonempty : pieces ≠ []

/-- A character that a name goes on spill. -/
def goesOn (c : Char) : Bool := Text.isWord c || c == '$'

structure Name where
  first : Char
  rest : List Char
  starts : startsName first = true
  continues : ∀ c ∈ rest, goesOn c = true

def Name.text (name : Name) : List Char := name.first :: name.rest

/-- What stands between the braces of a list of names. -/
structure Listing where
  inner : List Char
  whole : '}' ∉ inner
  bare : ∀ c ∈ inner, ¬ IsQuote c
  visible : ¬ ['/', '/'] <:+: inner ∧ ¬ ['/', '*'] <:+: inner

/-- The names that a directive brings in. -/
inductive Names where
  | one (name : Name)
  /-- All of them, under one name. -/
  | all (beforeAs : Option Gap) (afterAs : Gap) (name : Name)
  | list (names : Listing)

/-- The names and the word `from`. -/
structure Clause where
  names : Names
  beforeFrom : Gap
  afterFrom : Gap

/-- A path in its quotes. -/
structure Target where
  quote : Char
  path : List Char
  quoted : IsQuote quote
  plain : ∀ c ∈ path, c ≠ quote ∧ c ≠ '\n' ∧ c ≠ '\\'

structure Directive where
  gap : Gap
  clause : Option Clause
  target : Target

/-- The word `as` and a name, after a directive. -/
structure Alias where
  beforeAs : Option Gap
  afterAs : Gap
  name : Name

/-- A directive and what stands between it and the next. -/
structure Item where
  directive : Directive
  renamed : Option Alias
  filler : List Piece

/-- Directives with other text around them. -/
structure Document where
  lead : List Piece
  items : List Item
  /-- A comment that starts with two slashes and goes on to the end of the text. -/
  ending : Option (List Char)
  open_ : ∀ body ∈ ending, '\n' ∉ body

section Renderings

def gapOf (gap : Option Gap) : List Piece := gap.elim [] Gap.pieces

def Names.pieces : Names → List Piece
  | one name => word name.text
  | all beforeAs afterAs name =>
    word ['*'] ++ (gapOf beforeAs ++ (word ['a', 's'] ++ (afterAs.pieces ++ word name.text)))
  | list names => word ('{' :: (names.inner ++ ['}']))

def Clause.pieces (clause : Clause) : List Piece :=
  clause.names.pieces ++ (clause.beforeFrom.pieces ++
    (word ['f', 'r', 'o', 'm'] ++ clause.afterFrom.pieces))

/-- The word that a directive starts with. -/
def keyword : List Char := ['i', 'm', 'p', 'o', 'r', 't']

/-- A directive up to the quote that opens its path. -/
def Directive.front (directive : Directive) : List Piece :=
  word keyword ++ (directive.gap.pieces ++ directive.clause.elim [] Clause.pieces)

def Target.text (target : Target) : List Char := target.quote :: (target.path ++ [target.quote])

def Directive.text (directive : Directive) : List Char :=
  textOf directive.front ++ directive.target.text

def Alias.pieces (renamed : Alias) : List Piece :=
  gapOf renamed.beforeAs ++ (word ['a', 's'] ++ (renamed.afterAs.pieces ++ word renamed.name.text))

/-- All that stands between a directive and the next. The new name belongs to it: letters of the filler
that come right after the name go on with it. -/
def Item.between (item : Item) : List Piece := item.renamed.elim [] Alias.pieces ++ item.filler

def endingText (ending : Option (List Char)) : List Char :=
  ending.elim [] fun body => '/' :: '/' :: body

/-- The text of items and what comes after them. -/
def itemsText (ending : Option (List Char)) : List Item → List Char
  | [] => endingText ending
  | item :: items => item.directive.text ++ (textOf item.between ++ itemsText ending items)

def Document.text (document : Document) : List Char :=
  textOf document.lead ++ itemsText document.ending document.items

/-- The imports of items behind some text. -/
def importsAfter (before : List Char) : List Item → List Import
  | [] => []
  | item :: items =>
    let start := Text.byteLength
      (before ++ (textOf item.directive.front ++ [item.directive.target.quote]))
    ⟨String.ofList item.directive.target.path,
      ⟨start, start + Text.byteLength item.directive.target.path⟩⟩ ::
      importsAfter (before ++ (item.directive.text ++ textOf item.between)) items

/-- The imports of a document: the paths as they are written, and where they are. -/
def Document.imports (document : Document) : List Import :=
  importsAfter (textOf document.lead) document.items

end Renderings

/-- Pieces in which no import starts: the word stands in their comments only, not in their code and not
in their literals. -/
structure Silent (pieces : List Piece) (after : List Char) : Prop where
  joined : Coherent after.head? pieces
  silent : ¬ keyword <:+: seenOf pieces

/-- Each directive is behind the start of the text or a character of no word, and between the directives
no other starts. -/
def ItemsFit (ending : Option (List Char)) : (before : List Piece) → List Item → Prop
  | before, [] => Silent before (endingText ending)
  | before, item :: items => Silent before (itemsText ending (item :: items)) ∧
      isBoundary (textOf before).getLast? = true ∧ ItemsFit ending item.between items

def Document.Fits (document : Document) : Prop :=
  ItemsFit document.ending document.lead document.items

section Joining
variable {after : Option Char}

private theorem plain_of_goes_on {c : Char} (own : goesOn c = true) : ¬ IsQuote c ∧ c ≠ '/' := by
  refine ⟨?_, ?_⟩
  · rintro (rfl | rfl) <;> exact absurd own (by decide +kernel)
  · rintro rfl
    exact absurd own (by decide +kernel)

private theorem plain_of_starts {c : Char} (own : startsName c = true) : ¬ IsQuote c ∧ c ≠ '/' := by
  refine ⟨?_, ?_⟩
  · rintro (rfl | rfl) <;> exact absurd own (by decide)
  · rintro rfl
    exact absurd own (by decide)

theorem coherent_gap (gap : Gap) : Coherent after gap.pieces := by
  refine coherent_of_solid fun piece inside => ⟨gap.complete piece inside, ?_⟩
  rintro rfl
  exact absurd (gap.separates _ inside) (show ¬ Text.isBlank '/' = true by decide)

theorem coherent_gap_of (gap : Option Gap) : Coherent after (gapOf gap) := by
  cases gap with
  | none => trivial
  | some gap => exact coherent_gap gap

theorem coherent_name (name : Name) : Coherent after (word name.text) := by
  refine coherent_word fun c inside => ?_
  rcases List.mem_cons.mp inside with rfl | inside
  · exact plain_of_starts name.starts
  · exact plain_of_goes_on (name.continues c inside)

theorem coherent_list (names : Listing) : Coherent after (word ('{' :: (names.inner ++ ['}']))) := by
  have inner : Coherent (some '}') (word names.inner) :=
    coherent_code names.bare names.visible (by simp) (by simp)
  have brace : ∀ {after}, Coherent after (word ['}']) := coherent_word (by simp [IsQuote])
  have open_ : Coherent ((names.inner ++ ['}']).head?.or after) (word ['{']) :=
    coherent_word (by simp [IsQuote])
  have back : Coherent after (word (names.inner ++ ['}'])) := by
    rw [word_append, coherent_append]
    exact ⟨inner, brace⟩
  exact coherent_append.mpr ⟨by rwa [text_word], back⟩

theorem coherent_names (names : Names) : Coherent after names.pieces := by
  have as_ : ∀ {after}, Coherent after (word ['a', 's']) := coherent_word (by simp [IsQuote])
  have star : ∀ {after}, Coherent after (word ['*']) := coherent_word (by simp [IsQuote])
  cases names with
  | one name => exact coherent_name name
  | all beforeAs afterAs name =>
    simp only [Names.pieces, coherent_append]
    exact ⟨star, coherent_gap_of beforeAs, as_, coherent_gap afterAs, coherent_name name⟩
  | list names => exact coherent_list names

theorem coherent_clause (clause : Option Clause) : Coherent after (clause.elim [] Clause.pieces) := by
  have from_ : ∀ {after}, Coherent after (word ['f', 'r', 'o', 'm']) := coherent_word (by simp [IsQuote])
  cases clause with
  | none => trivial
  | some clause =>
    simp only [Option.elim_some, Clause.pieces, coherent_append]
    exact ⟨coherent_names clause.names, coherent_gap _, from_, coherent_gap _⟩

theorem coherent_front (directive : Directive) : Coherent after directive.front := by
  have start : ∀ {after}, Coherent after (word keyword) := coherent_word (by simp [keyword, IsQuote])
  simp only [Directive.front, coherent_append]
  exact ⟨start, coherent_gap _, coherent_clause _⟩

end Joining

/-- A part is found where cells show some faces, if it may stop at the cell that comes then; that cell
and the ones after it are left. -/
def Takes (parse : List Cell → Option (List Cell)) (faces : List Char) (stops : Char → Prop) : Prop :=
  ∀ (front : List Cell) (cell : Cell) (rest : List Cell), front.map Cell.face = faces →
    stops cell.face → parse (front ++ cell :: rest) = some (cell :: rest)

section Parts
variable {one two : List Cell → Option (List Cell)} {faces more : List Char} {stops ends : Char → Prop}

/-- Parts that follow each other, the first stopping where the second starts. -/
theorem takes_bind {start : Char} {tail : List Char} (first : Takes one faces stops)
    (second : Takes two more ends) (starts : more = start :: tail) (stopped : stops start) :
    Takes (fun cells => (one cells).bind two) (faces ++ more) ends := by
  intro front cell rest shown ended
  obtain ⟨front, back, rfl, firsts, backs⟩ := List.map_eq_append_iff.mp shown
  rw [starts] at backs
  obtain ⟨opening, back, rfl, opens, tails⟩ := List.map_eq_cons_iff.mp backs
  have left := first front opening (back ++ cell :: rest) firsts (by rw [opens]; exact stopped)
  have inner := second (opening :: back) cell rest (by rw [starts, List.map_cons, opens, tails]) ended
  simpa only [List.append_assoc, List.cons_append, left, Option.bind_some] using inner

theorem takes_word (word : List Char) : Takes (afterWord? word) word fun _ => True := by
  intro front cell rest shown _
  induction word generalizing front with
  | nil =>
    obtain rfl := List.map_eq_nil_iff.mp shown
    rfl
  | cons c word ih =>
    obtain ⟨first, front, rfl, own, tail⟩ := List.map_eq_cons_iff.mp shown
    rw [List.cons_append, afterWord?, if_pos own, ih front tail]

/-- A test of faces that passes some cells and stops at the next. -/
private theorem drop_passed {test : Char → Bool} {front : List Cell} {cell : Cell} (rest : List Cell)
    (passes : ∀ c ∈ front.map Cell.face, test c = true) (stops : test cell.face = false) :
    (front ++ cell :: rest).dropWhile (fun cell => test cell.face) = cell :: rest := by
  have inner : ∀ cell ∈ front, test cell.face = true := fun cell inside =>
    passes _ (List.mem_map_of_mem inside)
  rw [List.dropWhile_append_of_pos inner, List.dropWhile_cons_of_neg (by simp [stops])]

theorem takes_skip (blank : ∀ c ∈ faces, Text.isBlank c = true) :
    Takes (fun cells => some (skipBlanks cells)) faces fun c => Text.isBlank c = false := by
  intro front cell rest shown ended
  exact congrArg some (drop_passed rest (by rwa [shown]) ended)

theorem takes_blanks (nonempty : faces ≠ []) (blank : ∀ c ∈ faces, Text.isBlank c = true) :
    Takes afterBlanks? faces fun c => Text.isBlank c = false := by
  intro front cell rest shown ended
  cases front with
  | nil => exact absurd shown.symm nonempty
  | cons first front =>
    have own : Text.isBlank first.face = true := blank _ (by simp [← shown])
    have tail : ∀ c ∈ front.map Cell.face, Text.isBlank c = true := fun c inside =>
      blank c (by rw [← shown, List.map_cons]; exact List.mem_cons_of_mem _ inside)
    rw [List.cons_append, afterBlanks?, if_pos own]
    exact congrArg some (drop_passed rest tail ended)

theorem takes_name (name : Name) : Takes afterName? name.text fun c => goesOn c = false := by
  intro front cell rest shown ended
  obtain ⟨first, front, rfl, own, tail⟩ := List.map_eq_cons_iff.mp shown
  rw [List.cons_append, afterName?, own, if_pos name.starts]
  refine congrArg some (@drop_passed goesOn front cell rest ?_ ended)
  rw [tail]
  exact name.continues

theorem takes_list (names : Listing) :
    Takes afterList? (names.inner ++ ['}']) fun _ => True := by
  intro front cell rest shown _
  obtain ⟨inner, back, rfl, inners, backs⟩ := List.map_eq_append_iff.mp shown
  obtain ⟨close, back, rfl, closes, tails⟩ := List.map_eq_cons_iff.mp backs
  obtain rfl := List.map_eq_nil_iff.mp tails
  have passes : ∀ c ∈ inner.map Cell.face, decide (c ≠ '}') = true := by
    rw [inners]
    intro c inside
    have other : c ≠ '}' := fun same => names.whole (same ▸ inside)
    simpa using other
  have dropped := @drop_passed (fun c => decide (c ≠ '}')) inner close (cell :: rest) passes
    (by simp [closes])
  rw [List.append_assoc, List.cons_append, List.nil_append, afterList?, dropped]

end Parts

section Gaps

theorem gap_blank (gap : Gap) : ∀ c ∈ seenOf gap.pieces, Text.isBlank c = true := by
  intro c inside
  obtain ⟨piece, listed, among⟩ := List.mem_flatMap.mp inside
  have comment : ∀ text : List Char, c ∈ text.map blank → Text.isBlank c = true := by
    intro text among
    obtain ⟨d, -, rfl⟩ := List.mem_map.mp among
    unfold blank
    split
    · rename_i newline
      rw [newline]
      decide
    · decide
  have separates := gap.separates piece listed
  cases piece with
  | code d =>
    obtain rfl := List.mem_singleton.mp among
    exact separates
  | lineComment body => exact comment _ among
  | blockComment body => exact comment _ among
  | literal quote inside => exact separates.elim

theorem gap_starts (gap : Gap) : ∃ c rest, seenOf gap.pieces = c :: rest ∧ Text.isBlank c = true := by
  obtain ⟨piece, pieces, shape⟩ := List.exists_cons_of_ne_nil gap.nonempty
  have nonempty : seenOf gap.pieces ≠ [] := by
    rw [shape, seen_cons]
    cases piece <;> simp [Piece.seen, Piece.text]
  obtain ⟨c, rest, seen⟩ := List.exists_cons_of_ne_nil nonempty
  exact ⟨c, rest, seen, gap_blank gap c (by simp [seen])⟩

theorem takes_gap (gap : Gap) :
    Takes afterBlanks? (seenOf gap.pieces) fun c => Text.isBlank c = false := by
  obtain ⟨c, rest, seen, -⟩ := gap_starts gap
  exact takes_blanks (by simp [seen]) (gap_blank gap)

theorem takes_gap_of (gap : Option Gap) :
    Takes (fun cells => some (skipBlanks cells)) (seenOf (gapOf gap))
      fun c => Text.isBlank c = false := by
  cases gap with
  | none => exact takes_skip (by simp [gapOf])
  | some gap => exact takes_skip (gap_blank gap)

end Gaps

section Directives

private theorem name_solid (name : Name) : Text.isBlank name.first = false :=
  goes_on_solid (by simp [Declaration.continues, name.starts])

private theorem name_ends_at_blank {c : Char} (blank : Text.isBlank c = true) : goesOn c = false := by
  have noWord : Text.isWord c = false := by simpa [isBoundary] using boundary_after_blank blank
  have other : c ≠ '$' := by
    rintro rfl
    exact absurd blank (by decide)
  simp [goesOn, noWord, other]

/-- All names under one, from behind the star. -/
private theorem takes_all (beforeAs : Option Gap) (afterAs : Gap) (name : Name) :
    Takes (fun cells => ((afterWord? ['a', 's'] (skipBlanks cells)).bind afterBlanks?).bind afterName?)
      (seenOf (gapOf beforeAs) ++ (['a', 's'] ++ (seenOf afterAs.pieces ++ name.text)))
      fun c => goesOn c = false := by
  obtain ⟨c, rest, seen, -⟩ := gap_starts afterAs
  have named := takes_bind (takes_gap afterAs) (takes_name name) rfl (name_solid name)
  have worded := @takes_bind _ _ _ _ _ _ c (rest ++ name.text) (takes_word ['a', 's']) named
    (by rw [seen, List.cons_append]) trivial
  have whole := takes_bind (takes_gap_of beforeAs) worded rfl (by decide)
  simpa only [Option.bind_some, Option.bind_assoc] using whole

theorem takes_names (names : Names) :
    Takes Import.afterNames? (seenOf names.pieces) fun c => goesOn c = false := by
  intro front cell rest shown ended
  cases names with
  | one name =>
    have own : front.map Cell.face = name.text := by simpa [Names.pieces] using shown
    have found := takes_name name front cell rest own ended
    obtain ⟨first, front, rfl, face, -⟩ := List.map_eq_cons_iff.mp own
    have star : first.face ≠ '*' := by
      rintro star
      exact absurd name.starts (by rw [← face, star]; decide)
    have brace : first.face ≠ '{' := by
      rintro brace
      exact absurd name.starts (by rw [← face, brace]; decide)
    rw [List.cons_append, after_names_cons, if_neg star, if_neg brace]
    exact found
  | all beforeAs afterAs name =>
    simp only [Names.pieces, seen_append, seen_word] at shown
    obtain ⟨first, front, rfl, face, tail⟩ := List.map_eq_cons_iff.mp shown
    rw [List.cons_append, after_names_cons, if_pos face]
    exact takes_all beforeAs afterAs name front cell rest tail ended
  | list names =>
    simp only [Names.pieces, seen_word] at shown
    obtain ⟨first, front, rfl, face, tail⟩ := List.map_eq_cons_iff.mp shown
    have star : first.face ≠ '*' := by
      rw [face]
      decide
    rw [List.cons_append, after_names_cons, if_neg star, if_pos face]
    exact takes_list names front cell rest tail trivial

theorem takes_clause (clause : Clause) :
    Takes Import.afterClause? (seenOf clause.pieces) fun c => Text.isBlank c = false := by
  obtain ⟨b, rest, before, blank⟩ := gap_starts clause.beforeFrom
  obtain ⟨a, rest', after, -⟩ := gap_starts clause.afterFrom
  have named := takes_bind (takes_names clause.names) (takes_gap clause.beforeFrom) before
    (name_ends_at_blank blank)
  have worded := takes_bind (takes_word ['f', 'r', 'o', 'm']) (takes_gap clause.afterFrom) after trivial
  have whole := takes_bind named worded rfl (by decide)
  simp only [Clause.pieces, seen_append, seen_word]
  rw [← List.append_assoc]
  exact whole

private theorem clause_starts (clause : Clause) :
    ∃ c rest, seenOf clause.pieces = c :: rest ∧ Text.isBlank c = false := by
  obtain ⟨names, beforeFrom, afterFrom⟩ := clause
  simp only [Clause.pieces, seen_append]
  cases names with
  | one name => exact ⟨name.first, _, rfl, name_solid name⟩
  | all beforeAs afterAs name => exact ⟨'*', _, rfl, by decide⟩
  | list names => exact ⟨'{', _, rfl, by decide⟩

private theorem no_clause {quote : Cell} (quoted : IsQuote quote.face) (cells : List Cell) :
    Import.afterClause? (quote :: cells) = none := by
  have star : quote.face ≠ '*' := quote_ne quoted (by decide)
  have brace : quote.face ≠ '{' := quote_ne quoted (by decide)
  have name : startsName quote.face = false := by
    rcases quoted with own | own <;> rw [own] <;> decide
  have names : Import.afterNames? (quote :: cells) = none := by
    rw [after_names_cons, if_neg star, if_neg brace, afterName?, name]
    rfl
  rw [Import.afterClause?, names]
  rfl

/-- The word that a directive starts with and the blanks after it. -/
private theorem takes_keyword (gap : Gap) :
    Takes (fun cells => (afterWord? keyword cells).bind afterBlanks?) (keyword ++ seenOf gap.pieces)
      fun c => Text.isBlank c = false := by
  obtain ⟨c, rest, seen, -⟩ := gap_starts gap
  exact takes_bind (takes_word keyword) (takes_gap gap) seen trivial

/-- The cells of a directive are matched as an import of its path. -/
theorem match_directive (directive : Directive) {front inside rest : List Cell} {opening closing : Cell}
    (fronts : front.map Cell.face = seenOf directive.front)
    (opens : opening.face = directive.target.quote)
    (inner : inside.map Cell.face = directive.target.path)
    (closes : closing.face = directive.target.quote) :
    Import.match? (front ++ opening :: (inside ++ closing :: rest)) =
      some (⟨String.ofList (inside.map Cell.char), ⟨opening.offset + 1, closing.offset⟩⟩, rest) := by
  obtain ⟨gap, clause, target⟩ := directive
  have quoted : IsQuote opening.face := opens ▸ target.quoted
  have solid : Text.isBlank opening.face = false := by
    rcases quoted with own | own <;> rw [own] <;> decide
  have goesOn : ∀ cell ∈ inside, cell.face ≠ opening.face ∧ cell.face ≠ '\n' := by
    intro cell among
    obtain ⟨other, whole, -⟩ := target.plain cell.face (inner ▸ List.mem_map_of_mem among)
    exact ⟨by rwa [opens], whole⟩
  have read := literal_read quoted (closes.trans opens.symm) goesOn rest
  simp only [Directive.front, seen_append, seen_word] at fronts
  cases clause with
  | none =>
    have started := takes_keyword gap front opening (inside ++ closing :: rest)
      (by simpa using fronts) solid
    unfold keyword at started
    simp only [Import.match?, started, no_clause quoted, read]
  | some clause =>
    rw [← List.append_assoc] at fronts
    obtain ⟨first, second, rfl, firsts, seconds⟩ := List.map_eq_append_iff.mp fronts
    obtain ⟨c, tail, seen, blank⟩ := clause_starts clause
    have clauses : second.map Cell.face = seenOf clause.pieces := seconds
    obtain ⟨start, second, rfl, starts, -⟩ := List.map_eq_cons_iff.mp (clauses.trans seen)
    have started := takes_keyword gap first start (second ++ opening :: (inside ++ closing :: rest))
      firsts (by rwa [starts])
    have found :=
      takes_clause clause (start :: second) opening (inside ++ closing :: rest) clauses solid
    unfold keyword at started
    rw [List.cons_append] at found
    rw [List.append_assoc, List.cons_append]
    simp only [Import.match?, started, found, read]

end Directives

section Scans
variable {before : Option Char} {front rest : List Cell} {cell : Cell} {faces : List Char}

/-- No directive starts in cells that do not spell its first word. That word does not overlap itself, so
neither does one start in them and go on into the next. -/
private theorem no_keyword (silent : ¬ keyword <:+: (cell :: front).map Cell.face)
    (next : ∀ cell ∈ rest.head?, cell.face = 'i') :
    afterWord? keyword (cell :: (front ++ rest)) = none := by
  cases found : afterWord? keyword (cell :: (front ++ rest)) with
  | none => rfl
  | some beyond =>
    have spelled := word_spelled found
    rw [← List.cons_append, List.map_append] at spelled
    rcases List.append_eq_append_iff.mp spelled with ⟨spill, whole, goesOn⟩ | ⟨more, whole, -⟩
    · cases spill with
      | nil =>
        rw [List.append_nil] at whole
        exact absurd (whole ▸ List.infix_rfl) silent
      | cons c spill =>
        cases rest with
        | nil => cases goesOn
        | cons first rest =>
          have own : first.face = 'i' := next first rfl
          obtain rfl : 'i' = c := own.symm.trans (List.cons.inj goesOn).1
          have again : 'i' ∈ ['m', 'p', 'o', 'r', 't'] := by
            rw [(List.cons.inj whole).2]
            simp
          exact absurd again (by decide)
    · exact absurd (whole ▸ (List.prefix_append keyword more).isInfix) silent

/-- Cells that do not spell the first word of a directive are passed spill. -/
theorem scan_past (shown : front.map Cell.face = faces) (silent : ¬ keyword <:+: faces)
    (next : ∀ cell ∈ rest.head?, cell.face = 'i') :
    Import.scanCells before (front ++ rest) = Import.scanCells (faces.getLast?.or before) rest := by
  induction front generalizing before faces with
  | nil => rw [← shown]; rfl
  | cons cell front ih =>
    subst shown
    have tail : ¬ keyword <:+: front.map Cell.face := fun inside =>
      silent (inside.trans (List.suffix_cons _ _).isInfix)
    have missed : Import.match? (cell :: (front ++ rest)) = none := by
      have word := no_keyword silent next
      unfold keyword at word
      simp [Import.match?, word]
    rw [List.cons_append, scan_passed (by rw [missed, ite_self]), ih rfl tail, List.map_cons,
      List.getLast?_cons]
    cases (front.map Cell.face).getLast? <;> rfl

end Scans

section Texts
variable {more : List Char}

theorem shade_pieces {pieces : List Piece} (joined : Coherent more.head? pieces) (offset : Nat) :
    ∃ front, shade .code offset (textOf pieces ++ more) none =
        front ++ shade .code (offset + Text.byteLength (textOf pieces)) more none ∧
      front.map Cell.face = seenOf pieces := by
  have runs := runs_pieces joined
  rw [shade_append, Option.or_none, runs.stops]
  exact ⟨_, rfl, runs.shows offset⟩

private theorem shade_target (target : Target) (offset : Nat) (more : List Char) :
    shade .code offset (target.text ++ more) none = ⟨target.quote, offset, false⟩ ::
      (shade (.literal target.quote) (offset + 1) target.path (some target.quote) ++
        ⟨target.quote, offset + 1 + Text.byteLength target.path, false⟩ ::
          shade .code (offset + Text.byteLength target.text) more none) := by
  obtain ⟨quote, path, quoted, plain⟩ := target
  have slash : quote ≠ '/' := quote_ne quoted (by decide)
  have opens : ∀ next, Mode.code.step quote next = .literal quote := fun next => by
    have own : quote = '"' ∨ quote = '\'' := quoted
    simp [Mode.step, slash, own]
  have closes : ∀ next, (Mode.literal quote).step quote next = .code := by simp [Mode.step]
  have seen : ∀ next, Mode.code.hides quote next = false := by simp [Mode.hides, slash]
  have seen' : ∀ next, (Mode.literal quote).hides quote next = false := fun _ => rfl
  have inner := @runs_inside path (some quote) quote quoted (inside_of_plain plain)
  have size : Text.byteLength (Target.text ⟨quote, path, quoted, plain⟩) =
      1 + Text.byteLength path + 1 := by
    simp only [Target.text, Text.byteLength, byte_length_append, quote_size quoted]
    omega
  rw [size, ← Nat.add_assoc, ← Nat.add_assoc, Target.text, List.cons_append, List.append_assoc, shade,
    opens, seen, quote_size quoted, shade_append]
  simp only [List.singleton_append, List.head?_cons, Option.some_or, inner.stops, shade, closes, seen',
    quote_size quoted]

/-- The import that the text of a directive is matched as. -/
theorem match_text (directive : Directive) (offset : Nat) (more : List Char) :
    let start := offset + Text.byteLength (textOf directive.front ++ [directive.target.quote])
    Import.match? (shade .code offset (directive.text ++ more) none) =
      some (⟨String.ofList directive.target.path,
          ⟨start, start + Text.byteLength directive.target.path⟩⟩,
        shade .code (offset + Text.byteLength directive.text) more none) := by
  intro start
  obtain ⟨front, cells, fronts⟩ := @shade_pieces (directive.target.text ++ more) _
    (coherent_front directive) offset
  have inner := @runs_inside _ (some directive.target.quote) _ directive.target.quoted
    (inside_of_plain directive.target.plain)
  have faced : ∀ offset, (Cell.mk directive.target.quote offset false).face =
      directive.target.quote := fun _ => rfl
  have place : offset + Text.byteLength (textOf directive.front) + 1 = start := by
    simp only [start, byte_length_append, Text.byteLength, quote_size directive.target.quoted]
    omega
  rw [Directive.text, List.append_assoc, cells, shade_target, byte_length_append, ← Nat.add_assoc,
    match_directive directive fronts (faced _) (inner.shows _) (faced _), map_char_shade, place]

end Texts

section Endings
variable {ending : Option (List Char)} {pieces : List Piece} {faces blanks : List Char}

/-- Blanks that follow do not make the word. -/
private theorem silent_append (silent : ¬ keyword <:+: faces) (blank : ∀ c ∈ blanks, c = ' ') :
    ¬ keyword <:+: faces ++ blanks := by
  rintro ⟨front, back, whole⟩
  rcases List.append_eq_append_iff.mp whole with ⟨spill, inside, -⟩ | ⟨spill, inside, rfl⟩
  · exact silent ⟨front, spill, inside.symm⟩
  · rcases List.eq_nil_or_concat spill with rfl | ⟨spill, c, rfl⟩
    · rw [List.append_nil] at inside
      exact silent ⟨front, [], by rw [List.append_nil, inside]⟩
    · have last := congrArg List.getLast? inside
      rw [List.concat_eq_append, ← List.append_assoc, List.getLast?_concat,
        List.getLast?_append] at last
      obtain rfl : 't' = c := Option.some.inj last
      exact absurd (blank 't' (by simp)) (by decide)

private theorem runs_ending (whole : ∀ body ∈ ending, '\n' ∉ body) : ∃ mode blanks,
    Runs .code (endingText ending) none mode blanks ∧ ∀ c ∈ blanks, c = ' ' := by
  cases ending with
  | none => exact ⟨.code, [], runs_nil, by simp⟩
  | some body =>
    have unbroken := whole body rfl
    have opened : Runs .openLine ('/' :: body) none .line (' ' :: body.map blank) :=
      runs_cons rfl rfl (runs_line unbroken)
    refine ⟨.line, ' ' :: ' ' :: body.map blank, runs_cons rfl rfl opened, ?_⟩
    simp only [List.mem_cons, List.mem_map, forall_eq_or_imp, true_and]
    rintro _ ⟨c, inside, rfl⟩
    have other : c ≠ '\n' := fun newline => unbroken (newline ▸ inside)
    exact if_neg other

/-- No import is found in what is between the last directive and the end. -/
theorem scan_ending (whole : ∀ body ∈ ending, '\n' ∉ body) (silent : Silent pieces (endingText ending))
    (before : Option Char) (offset : Nat) :
    Import.scanCells before (shade .code offset (textOf pieces ++ endingText ending) none) = [] := by
  obtain ⟨mode, blanks, ends, blank⟩ := runs_ending whole
  have joined : Coherent ((endingText ending).head?.or none) pieces := by
    rw [Option.or_none]
    exact silent.joined
  have runs := runs_append (runs_pieces joined) ends
  have past :=
    @scan_past before _ [] _ (runs.shows offset) (silent_append silent.silent blank) (by simp)
  rw [List.append_nil] at past
  rw [past, Import.scanCells]

end Endings

section Documents
variable {ending : Option (List Char)} {pieces : List Piece} {items : List Item}

private theorem boundary_or {first second : Option Char} (one : isBoundary first = true)
    (other : isBoundary second = true) : isBoundary (first.or second) = true := by
  cases first with
  | none => exact other
  | some c => exact one

/-- A directive starts with the first letter of its word. -/
private theorem starts_with_keyword (directive : Directive) (offset : Nat) (more : List Char) :
    ∀ cell ∈ (shade .code offset (directive.text ++ more) none).head?, cell.face = 'i' := by
  intro cell first
  obtain rfl := Option.some.inj first
  rfl

/-- From each place between directives on, the scan finds the directives that come after it. -/
theorem scan_items (whole : ∀ body ∈ ending, '\n' ∉ body) (fits : ItemsFit ending pieces items)
    (before : List Char) {last : Option Char} (boundary : isBoundary last = true) :
    Import.scanCells last
        (shade .code (Text.byteLength before) (textOf pieces ++ itemsText ending items) none) =
      importsAfter (before ++ textOf pieces) items := by
  induction items generalizing pieces before last with
  | nil => exact scan_ending whole fits last _
  | cons item items ih =>
    obtain ⟨silent, apart, rest⟩ := fits
    obtain ⟨front, cells, fronts⟩ := shade_pieces silent.joined (Text.byteLength before)
    have own : isBoundary ((seenOf pieces).getLast?.or last) = true :=
      boundary_or (by rwa [boundary_of_seen]) boundary
    have found := match_text item.directive (Text.byteLength before + Text.byteLength (textOf pieces))
      (textOf item.between ++ itemsText ending items)
    have tail := ih rest (before ++ textOf pieces ++ item.directive.text)
      (show isBoundary (some '"') = true by decide +kernel)
    simp only [byte_length_append] at found
    rw [cells, itemsText, scan_past fronts silent.silent (starts_with_keyword _ _ _),
      scan_found own found, importsAfter]
    simp only [byte_length_append, List.append_assoc, Nat.add_assoc] at tail ⊢
    rw [tail]

theorem paths_of_imports (before : List Char) (items : List Item) :
    (importsAfter before items).map Import.path =
      items.map fun item => String.ofList item.directive.target.path := by
  induction items generalizing before with
  | nil => rfl
  | cons item items ih => exact congrArg (_ :: ·) (ih _)

/-- A scan of a document finds its imports: the paths of the directives, in order, where they are
written. -/
theorem rendered_imports_found (document : Document) (fits : document.Fits) :
    Import.scan document.text = document.imports ∧
      (Import.scan document.text).map Import.path =
        document.items.map fun item => String.ofList item.directive.target.path := by
  have found : Import.scan document.text = document.imports := by
    rw [Import.scan, cells_eq_shade]
    exact @scan_items document.ending document.lead document.items document.open_ fits [] none rfl
  exact ⟨found, by rw [found, Document.imports, paths_of_imports]⟩

private def space : Gap where
  pieces := [.code ' ']
  complete := by simp [Piece.Complete, IsQuote]
  separates := by simp [Piece.Separates]; decide
  nonempty := by simp

/-- A directive in a comment, and a line that ends. -/
private def remark : Gap where
  pieces := [.blockComment (keyword ++ [' ', '"', '*', '"']), .lineComment keyword, .code '\t']
  complete := by simp [Piece.Complete, IsQuote, keyword]; decide
  separates := by simp [Piece.Separates]; decide
  nonempty := by simp

private def letter (first : Char) (starts : startsName first = true) : Name :=
  ⟨first, [], starts, by simp⟩

private def listed : Directive where
  gap := remark
  clause := some
    ⟨.list ⟨['A', ',', '\n', 'b', '/'], by decide, by simp [IsQuote], by decide⟩, space, remark⟩
  target := ⟨'"', ['.', '/', 'a'], .inl rfl, by simp⟩

private def starred : Directive where
  gap := space
  clause := some ⟨.all none remark (letter 'l' rfl), remark, space⟩
  target := ⟨'\'', ['b'], .inr rfl, by simp⟩

private def bare : Directive where
  gap := space
  clause := none
  target := ⟨'"', ['c'], .inl rfl, by simp⟩

/-- A text with each form of an import, and with the word in its comments. -/
private def sample : Document where
  lead := [.lineComment (keyword ++ [' ', '"', 'o', '"'])]
  items := [⟨listed, none, [.literal '"' ['\\', '"'], .code ';']⟩,
    ⟨starred, none, [.code '/', .code '\n']⟩,
    ⟨bare, some ⟨some space, space, letter 'x' rfl⟩, [.code ';']⟩]
  ending := some keyword
  open_ := by decide

theorem imports_of_sample : sample.Fits ∧ (Import.scan sample.text).map Import.path =
    [String.ofList ['.', '/', 'a'], String.ofList ['b'], String.ofList ['c']] := by
  have fits : sample.Fits := by
    refine ⟨⟨?_, by decide⟩, by decide +kernel, ⟨?_, by decide⟩, by decide +kernel, ⟨?_, by decide⟩,
      by decide +kernel, ⟨?_, by decide⟩⟩
    · simp [sample, Coherent, Piece.Complete, keyword]
    · have quoted : Inside '"' ['\\', '"'] := .escaped .nil
      simp [Item.between, Coherent, Piece.Complete, IsQuote, quoted]
    · simp [Item.between, Coherent, Piece.Complete, Piece.text, IsQuote]
    · simp [Item.between, Alias.pieces, gapOf, space, word, letter, Name.text, Coherent,
        Piece.Complete, IsQuote]
  exact ⟨fits, (rendered_imports_found sample fits).2⟩

end Documents

end ContractBuild.RenderedImports
