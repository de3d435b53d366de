import ContractBuild.Proofs.Shading
import ContractBuild.Source.Declaration

/-! Source texts put together from whole pieces: characters of code, complete comments and complete
literals. Read from code the machine is in code again after each piece, so what is seen of the text is
what is seen of its pieces, one after the other. -/
namespace ContractBuild.SourcePieces
open Shading Source

/-- A piece of a source text. -/
inductive Piece where
  /-- A character of code, blanks among them. -/
  | code (c : Char)
  /-- A comment from two slashes to the newline that ends it. -/
  | lineComment (body : List Char)
  /-- A comment between a slash and a star and a star and a slash. -/
  | blockComment (body : List Char)
  | literal (quote : Char) (inside : List Char)
  deriving DecidableEq

/-- What may stand inside a literal: no newline and no quote of its own, unless there is a backslash
before it. -/
inductive Inside (quote : Char) : List Char → Prop where
  | nil : Inside quote []
  | plain {c : Char} {rest : List Char} (open_ : c ≠ quote) (whole : c ≠ '\n') (free : c ≠ '\\')
      (tail : Inside quote rest) : Inside quote (c :: rest)
  | escaped {c : Char} {rest : List Char} (tail : Inside quote rest) :
      Inside quote ('\\' :: c :: rest)

/-- What is seen of a character in a comment. -/
def blank (c : Char) : Char := if c = '\n' then c else ' '

namespace Piece

def text : Piece → List Char
  | code c => [c]
  | lineComment body => '/' :: '/' :: (body ++ ['\n'])
  | blockComment body => '/' :: '*' :: (body ++ ['*', '/'])
  | literal quote inside => quote :: (inside ++ [quote])

/-- What is seen of the piece: comments are blanked out. -/
def seen : Piece → List Char
  | code c => [c]
  | lineComment body => (lineComment body).text.map blank
  | blockComment body => (blockComment body).text.map blank
  | literal quote inside => (literal quote inside).text

/-- The piece ends where its text ends and not before. -/
def Complete : Piece → Prop
  | code c => ¬ IsQuote c
  | lineComment body => '\n' ∉ body
  | blockComment body => ¬ ['*', '/'] <:+: body
  | literal quote inside => IsQuote quote ∧ Inside quote inside

/-- Blanks and comments, which may separate words. -/
def Separates : Piece → Prop
  | code c => Text.isBlank c = true
  | lineComment _ | blockComment _ => True
  | literal _ _ => False

end Piece

/-- The text of pieces. -/
def textOf (pieces : List Piece) : List Char := pieces.flatMap Piece.text

/-- What is seen of pieces. -/
def seenOf (pieces : List Piece) : List Char := pieces.flatMap Piece.seen

/-- The pieces are complete, and stay what they are with each other and with what comes after them: no
slash of code opens a comment. -/
def Coherent (after : Option Char) : List Piece → Prop
  | [] => True
  | piece :: rest => piece.Complete ∧
      (piece = .code '/' → (textOf rest).head?.or after ≠ some '/' ∧
        (textOf rest).head?.or after ≠ some '*') ∧
      Coherent after rest

/-- The pieces that spell a text of code. -/
def word (text : List Char) : List Piece := text.map .code

section Texts

@[simp] theorem text_nil : textOf [] = [] := rfl

@[simp] theorem seen_nil : seenOf [] = [] := rfl

@[simp] theorem text_cons (piece : Piece) (pieces : List Piece) :
    textOf (piece :: pieces) = piece.text ++ textOf pieces := List.flatMap_cons

@[simp] theorem seen_cons (piece : Piece) (pieces : List Piece) :
    seenOf (piece :: pieces) = piece.seen ++ seenOf pieces := List.flatMap_cons

@[simp] theorem text_append (first second : List Piece) :
    textOf (first ++ second) = textOf first ++ textOf second := List.flatMap_append

@[simp] theorem seen_append (first second : List Piece) :
    seenOf (first ++ second) = seenOf first ++ seenOf second := List.flatMap_append

@[simp] theorem text_word (text : List Char) : textOf (word text) = text := by
  induction text with
  | nil => rfl
  | cons c text ih => exact congrArg (c :: ·) ih

@[simp] theorem seen_word (text : List Char) : seenOf (word text) = text := by
  induction text with
  | nil => rfl
  | cons c text ih => exact congrArg (c :: ·) ih

@[simp] theorem word_append (first second : List Char) :
    word (first ++ second) = word first ++ word second := List.map_append

end Texts

section Blanks
variable {c : Char}

/-- No blank is a word character. -/
theorem boundary_after_blank (blank : Text.isBlank c = true) :
    isBoundary (some c) = true := by
  have apart : ∀ blanks ∈ Text.blankRanges, ∀ letters ∈ Text.wordRanges,
      blanks.2 < letters.1 ∨ letters.2 < blanks.1 := by
    decide +kernel
  simp only [Text.isBlank, List.any_eq_true, Bool.and_eq_true, decide_eq_true_eq] at blank
  obtain ⟨blanks, listed, first, last⟩ := blank
  simp only [isBoundary, Text.isWord, Bool.not_eq_true', List.any_eq_false, Bool.and_eq_true,
    decide_eq_true_eq, not_and]
  intro letters listed' start
  have := apart blanks listed letters listed'
  omega

/-- No blank stands in a name. -/
theorem goes_on_solid (goesOn : Declaration.continues c = true) :
    Text.isBlank c = false := by
  have ascii : c.toNat < 0x80 := by
    simp only [Declaration.continues, startsName, Bool.or_eq_true, Bool.and_eq_true,
      decide_eq_true_eq, beq_iff_eq, Char.le_def, UInt32.le_iff_toNat_le] at goesOn
    have value : c.toNat = c.val.toNat := rfl
    rcases goesOn with (((upper | lower) | rfl) | rfl) | digit
    · exact value ▸ Nat.lt_of_le_of_lt upper.2 (by decide)
    · exact value ▸ Nat.lt_of_le_of_lt lower.2 (by decide)
    · decide
    · decide
    · exact value ▸ Nat.lt_of_le_of_lt digit.2 (by decide)
  have each : ∀ n < 0x80, Declaration.continues (Char.ofNat n) = true →
      Text.isBlank (Char.ofNat n) = false := by decide
  have own := each c.toNat ascii
  rw [Char.ofNat_toNat] at own
  exact own goesOn

end Blanks

section Joining
variable {pieces more : List Piece} {text : List Char} {after : Option Char}

theorem coherent_append : Coherent after (pieces ++ more) ↔
    Coherent ((textOf more).head?.or after) pieces ∧ Coherent after more := by
  induction pieces with
  | nil => exact (and_iff_right trivial).symm
  | cons piece pieces ih =>
    rw [List.cons_append, Coherent, Coherent, ih, text_append, List.head?_append, Option.or_assoc]
    tauto

/-- Pieces that are no slashes are joined with whatever comes after them. -/
theorem coherent_of_solid (solid : ∀ piece ∈ pieces, piece.Complete ∧ piece ≠ .code '/') :
    Coherent after pieces := by
  induction pieces with
  | nil => trivial
  | cons piece pieces ih =>
    obtain ⟨complete, other⟩ := solid piece (List.mem_cons_self ..)
    exact ⟨complete, fun slash => absurd slash other,
      ih fun piece inside => solid piece (List.mem_cons_of_mem _ inside)⟩

theorem coherent_word (plain : ∀ c ∈ text, ¬ IsQuote c ∧ c ≠ '/') : Coherent after (word text) := by
  refine coherent_of_solid fun piece inside => ?_
  obtain ⟨c, among, rfl⟩ := List.mem_map.mp inside
  exact ⟨(plain c among).1, fun slash => (plain c among).2 (Piece.code.inj slash)⟩

/-- Code with slashes in it is joined if none of them opens a comment. -/
theorem coherent_code (bare : ∀ c ∈ text, ¬ IsQuote c)
    (visible : ¬ ['/', '/'] <:+: text ∧ ¬ ['/', '*'] <:+: text)
    (slash : after ≠ some '/') (star : after ≠ some '*') : Coherent after (word text) := by
  induction text with
  | nil => trivial
  | cons c text ih =>
    have inner : ∀ {opener}, opener <:+: text → opener <:+: c :: text := fun inside =>
      inside.trans (List.suffix_cons c text).isInfix
    show Coherent after (.code c :: word text)
    refine ⟨bare c (List.mem_cons_self ..), fun same => ?_,
      ih (fun c inside => bare c (List.mem_cons_of_mem _ inside))
        (visible.imp (mt inner) (mt inner))⟩
    obtain rfl := Piece.code.inj same
    rw [text_word]
    cases text with
    | nil => exact ⟨slash, star⟩
    | cons d text =>
      have opens : ∀ {d}, ['/', d] <:+: '/' :: d :: text := (List.prefix_append ['/', _] text).isInfix
      constructor
      · rintro next
        obtain rfl : d = '/' := by simpa using next
        exact visible.1 opens
      · rintro next
        obtain rfl : d = '*' := by simpa using next
        exact visible.2 opens

end Joining

/-- The machine reads a text that is followed by a character: it ends in a state, and it shows some
faces. -/
structure Runs (mode : Mode) (text : List Char) (after : Option Char) (stop : Mode)
    (seen : List Char) : Prop where
  stops : mode.run text after = stop
  shows : ∀ offset, (shade mode offset text after).map Cell.face = seen

section Runs
variable {mode middle stop : Mode} {text more seen seen' : List Char} {after : Option Char} {c : Char}

theorem runs_nil : Runs mode [] after mode [] := ⟨rfl, fun _ => rfl⟩

theorem runs_append (first : Runs mode text (more.head?.or after) middle seen)
    (second : Runs middle more after stop seen') :
    Runs mode (text ++ more) after stop (seen ++ seen') := by
  refine ⟨by rw [run_append, first.stops, second.stops], fun offset => ?_⟩
  rw [shade_append, List.map_append, first.stops, first.shows, second.shows]

/-- One character, of which `face` is seen. -/
theorem runs_cons {face : Char} (step : mode.step c (text.head?.or after) = middle)
    (shown : (if mode.hides c (text.head?.or after) ∧ c ≠ '\n' then ' ' else c) = face)
    (rest : Runs middle text after stop seen) : Runs mode (c :: text) after stop (face :: seen) := by
  refine ⟨by rw [Mode.run, step, rest.stops], fun offset => ?_⟩
  rw [shade, List.map_cons, step, rest.shows]
  exact congrArg (· :: seen) shown

theorem runs_line (whole : '\n' ∉ text) : Runs .line text after .line (text.map blank) := by
  induction text with
  | nil => exact runs_nil
  | cons c text ih =>
    obtain ⟨other, rest⟩ := List.ne_and_not_mem_of_not_mem_cons whole
    refine runs_cons ?_ ?_ (ih rest)
    · simp [Mode.step, Ne.symm other]
    · simp [Mode.hides, blank, Ne.symm other]

/-- A comment goes on until its star and slash. -/
private theorem runs_block (whole : ¬ ['*', '/'] <:+: text) (last : after ≠ some '/') :
    Runs .block text after .block (text.map blank) := by
  induction text with
  | nil => exact runs_nil
  | cons c text ih =>
    have rest : ¬ ['*', '/'] <:+: text :=
      fun inside => whole (inside.trans (List.suffix_cons c _).isInfix)
    have goesOn : ¬ (c = '*' ∧ text.head?.or after = some '/') := by
      rintro ⟨rfl, slash⟩
      cases text with
      | nil => exact last slash
      | cons d text =>
        obtain rfl : d = '/' := by simpa using slash
        exact whole (List.prefix_append ['*', '/'] text).isInfix
    refine runs_cons ?_ ?_ (ih rest)
    · simp only [Mode.step, if_neg goesOn]
    · simp [Mode.hides, blank, ite_not]

theorem runs_inside {quote : Char} (quoted : IsQuote quote) (inside : Inside quote text) :
    Runs (.literal quote) text after (.literal quote) text := by
  induction inside with
  | nil => exact runs_nil
  | plain open_ whole free tail ih =>
    exact runs_cons (by simp [Mode.step, open_, whole, free]) (by simp [Mode.hides]) ih
  | @escaped c rest tail ih =>
    have other : '\\' ≠ quote := (quote_ne quoted (by decide)).symm
    have opens : ∀ next, (Mode.literal quote).step '\\' next = .escape quote := by
      simp [Mode.step, other]
    have escapes : Runs (.escape quote) (c :: rest) after (.literal quote) (c :: rest) :=
      runs_cons rfl (by simp [Mode.hides]) ih
    exact runs_cons (opens _) (by simp [Mode.hides]) escapes

theorem inside_of_plain {quote : Char}
    (plain : ∀ c ∈ text, c ≠ quote ∧ c ≠ '\n' ∧ c ≠ '\\') : Inside quote text := by
  induction text with
  | nil => exact .nil
  | cons c text ih =>
    obtain ⟨open_, whole, free⟩ := plain c (List.mem_cons_self ..)
    exact .plain open_ whole free (ih fun c inside => plain c (List.mem_cons_of_mem _ inside))

end Runs

section Pieces
variable {piece : Piece} {pieces : List Piece} {after : Option Char}

/-- After a piece the machine is in code again. -/
private theorem runs_piece (complete : piece.Complete)
    (whole : piece = .code '/' → after ≠ some '/' ∧ after ≠ some '*') :
    Runs .code piece.text after .code piece.seen := by
  cases piece with
  | code c =>
    have opens : ¬ (c = '"' ∨ c = '\'') := complete
    have apart : ¬ (c = '/' ∧ after = some '/') ∧ ¬ (c = '/' ∧ after = some '*') :=
      ⟨fun ⟨slash, next⟩ => (whole (by rw [slash])).1 next,
        fun ⟨slash, next⟩ => (whole (by rw [slash])).2 next⟩
    refine runs_cons ?_ ?_ runs_nil
    · simp [Mode.step, apart, opens]
    · have shown : ¬ (c = '/' ∧ (after = some '/' ∨ after = some '*')) := by
        rintro ⟨slash, next⟩
        exact next.elim (whole (by rw [slash])).1 (whole (by rw [slash])).2
      simp [Mode.hides, shown]
  | lineComment body =>
    have ends : Runs .line ['\n'] after .code ['\n'] := runs_cons rfl rfl runs_nil
    have opened : Runs .openLine ('/' :: (body ++ ['\n'])) after .code
        (' ' :: (body.map blank ++ ['\n'])) := runs_cons rfl rfl (runs_append (runs_line complete) ends)
    have whole : Runs .code ('/' :: '/' :: (body ++ ['\n'])) after .code
        (' ' :: ' ' :: (body.map blank ++ ['\n'])) := runs_cons rfl rfl opened
    simpa [Piece.text, Piece.seen, blank] using whole
  | blockComment body =>
    have closes : Runs .closeBlock ['/'] after .code [' '] := runs_cons rfl rfl runs_nil
    have ends : Runs .block ['*', '/'] after .code [' ', ' '] := runs_cons rfl rfl closes
    have opened : Runs .openBlock ('*' :: (body ++ ['*', '/'])) after .code
        (' ' :: (body.map blank ++ [' ', ' '])) :=
      runs_cons rfl rfl (runs_append (runs_block complete (by simp)) ends)
    have whole : Runs .code ('/' :: '*' :: (body ++ ['*', '/'])) after .code
        (' ' :: ' ' :: (body.map blank ++ [' ', ' '])) := runs_cons rfl rfl opened
    simpa [Piece.text, Piece.seen, blank] using whole
  | literal quote inside =>
    obtain ⟨quoted, inner⟩ := complete
    have closes : Runs (.literal quote) [quote] after .code [quote] :=
      runs_cons (by simp [Mode.step]) (by simp [Mode.hides]) runs_nil
    have slash : quote ≠ '/' := quote_ne quoted (by decide)
    have opens : quote = '"' ∨ quote = '\'' := quoted
    exact runs_cons (by simp [Mode.step, slash, opens]) (by simp [Mode.hides, slash])
      (runs_append (runs_inside quoted inner) closes)

/-- After pieces the machine is in code, and it has shown what is seen of them. -/
theorem runs_pieces (joined : Coherent after pieces) :
    Runs .code (textOf pieces) after .code (seenOf pieces) := by
  induction pieces with
  | nil => exact runs_nil
  | cons piece pieces ih =>
    obtain ⟨complete, whole, rest⟩ := joined
    rw [text_cons, seen_cons]
    exact runs_append (runs_piece complete whole) (ih rest)

private theorem ends_alike (piece : Piece) : ∃ front front' last last',
    piece.text = front ++ [last] ∧ piece.seen = front' ++ [last'] ∧
      isBoundary (some last') = isBoundary (some last) := by
  cases piece with
  | code c => exact ⟨[], [], c, c, rfl, rfl, rfl⟩
  | lineComment body =>
    exact ⟨'/' :: '/' :: body, ('/' :: '/' :: body).map blank, '\n', '\n', rfl,
      by simp [Piece.seen, Piece.text, blank], rfl⟩
  | blockComment body =>
    exact ⟨'/' :: '*' :: (body ++ ['*']), ('/' :: '*' :: (body ++ ['*'])).map blank, '/', ' ',
      by simp [Piece.text], by simp [Piece.seen, Piece.text, blank], by decide +kernel⟩
  | literal quote inside => exact ⟨quote :: inside, quote :: inside, quote, quote, rfl, rfl, rfl⟩

/-- A word goes on behind pieces if it seems to. -/
theorem boundary_of_seen (pieces : List Piece) :
    isBoundary (seenOf pieces).getLast? = isBoundary (textOf pieces).getLast? := by
  rcases List.eq_nil_or_concat pieces with rfl | ⟨pieces, piece, rfl⟩
  · rfl
  · obtain ⟨front, front', last, last', text, seen, alike⟩ := ends_alike piece
    simp [text, seen, alike]

end Pieces

end ContractBuild.SourcePieces
