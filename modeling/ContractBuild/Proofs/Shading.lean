import ContractBuild.Proofs.PathWalk
import ContractBuild.Source.Mask

/-! What is hidden of a source text, told one character at a time. A small machine reads the text; its
state, a character and the one after it decide whether the character is hidden. So a text can be
taken apart at any place, and if two pieces leave the machine in one state, what follows them is
hidden alike. -/
namespace ContractBuild.Shading
open PathWalk Source

/-- What the machine is in the middle of. -/
inductive Mode where
  | code
  /-- Between the two slashes that open a comment. -/
  | openLine
  | line
  /-- Between the slash and the star that open a comment. -/
  | openBlock
  | block
  /-- Between the star and the slash that close a comment. -/
  | closeBlock
  | literal (quote : Char)
  /-- After a backslash in a literal. -/
  | escape (quote : Char)
  deriving DecidableEq

namespace Mode

/-- The state after a character, the one after it being looked at already. -/
def step (mode : Mode) (c : Char) (next : Option Char) : Mode :=
  match mode with
  | code =>
    if c = '/' ∧ next = some '/' then openLine
    else if c = '/' ∧ next = some '*' then openBlock
    else if c = '"' ∨ c = '\'' then literal c
    else code
  | openLine => line
  | line => if c = '\n' then code else line
  | openBlock => block
  | block => if c = '*' ∧ next = some '/' then closeBlock else block
  | closeBlock => code
  | literal quote =>
    if c = quote ∨ c = '\n' then code else if c = '\\' then escape quote else literal quote
  | escape quote => literal quote

/-- Whether a character is hidden. -/
def hides (mode : Mode) (c : Char) (next : Option Char) : Bool :=
  match mode with
  | code => c = '/' ∧ (next = some '/' ∨ next = some '*')
  | line => c ≠ '\n'
  | openLine | openBlock | block | closeBlock => true
  | literal _ | escape _ => false

/-- The state after a text that is followed by a character. -/
def run (mode : Mode) (text : List Char) (after : Option Char) : Mode :=
  match text with
  | [] => mode
  | c :: text => (mode.step c (text.head?.or after)).run text after

end Mode

/-- The cells of a text that starts at an offset and is followed by a character. -/
def shade (mode : Mode) (offset : Nat) (text : List Char) (after : Option Char) : List Cell :=
  match text with
  | [] => []
  | c :: text =>
    ⟨c, offset, mode.hides c (text.head?.or after)⟩ ::
      shade (mode.step c (text.head?.or after)) (offset + c.utf8Size) text after

section Parts
variable {mode : Mode} {offset : Nat} {text : List Char} {after : Option Char}

theorem run_append (mode : Mode) (first second : List Char) (after : Option Char) :
    mode.run (first ++ second) after =
      (mode.run first (second.head?.or after)).run second after := by
  induction first generalizing mode with
  | nil => rfl
  | cons c first ih =>
    simp only [List.cons_append, Mode.run, List.head?_append, Option.or_assoc, ih]

theorem shade_append (mode : Mode) (offset : Nat) (first second : List Char)
    (after : Option Char) :
    shade mode offset (first ++ second) after = shade mode offset first (second.head?.or after) ++
      shade (mode.run first (second.head?.or after)) (offset + Text.byteLength first) second
        after := by
  induction first generalizing mode offset with
  | nil => simp [shade, Mode.run, Text.byteLength]
  | cons c first ih =>
    simp only [List.cons_append, shade, Mode.run, List.head?_append, Option.or_assoc, ih,
      Text.byteLength, Nat.add_assoc]

@[simp] theorem map_char_shade (mode : Mode) (offset : Nat) (text : List Char)
    (after : Option Char) : (shade mode offset text after).map Cell.char = text := by
  induction text generalizing mode offset with
  | nil => rfl
  | cons c text ih => simp [shade, ih]

@[simp] theorem length_shade (mode : Mode) (offset : Nat) (text : List Char)
    (after : Option Char) : (shade mode offset text after).length = text.length := by
  rw [← List.length_map Cell.char, map_char_shade]

/-- Cells that are taken apart are the cells of the parts of the text. -/
theorem parts_of_shade {front back : List Cell} (whole : shade mode offset text after = front ++ back) :
    ∃ first second, text = first ++ second ∧
      front = shade mode offset first (second.head?.or after) ∧
      back = shade (mode.run first (second.head?.or after)) (offset + Text.byteLength first) second
        after := by
  have chars := congrArg (List.map Cell.char) whole
  rw [map_char_shade, List.map_append] at chars
  refine ⟨_, _, chars, ?_⟩
  rw [chars, shade_append] at whole
  obtain ⟨first, second⟩ := List.append_inj whole (by simp)
  exact ⟨first.symm, second.symm⟩

end Parts

section Tokens

private theorem shade_line (offset : Nat) (text : List Char) :
    shade .line offset text none =
      Cell.ofChars true offset (text.takeWhile (· ≠ '\n')) ++
        shade .code (offset + Text.byteLength (text.takeWhile (· ≠ '\n')))
          (text.dropWhile (· ≠ '\n')) none := by
  induction text generalizing offset with
  | nil => rfl
  | cons c text ih =>
    by_cases newline : c = '\n'
    · subst newline
      simp [shade, Mode.hides, Mode.step, Cell.ofChars, Text.byteLength]
    · have rest := ih (offset + c.utf8Size)
      simp only [ne_eq, decide_not] at rest
      simp [shade, Mode.hides, Mode.step, newline, Cell.ofChars, Text.byteLength, rest,
        Nat.add_assoc]

private theorem shade_block (offset : Nat) (text : List Char) :
    shade .block offset text none =
      Cell.ofChars true offset (Lexeme.blockBody text).1 ++
        shade .code (offset + Text.byteLength (Lexeme.blockBody text).1)
          (Lexeme.blockBody text).2 none := by
  fun_induction Lexeme.blockBody text generalizing offset with
  | case1 => rfl
  | case2 rest =>
    simp [shade, Mode.hides, Mode.step, Cell.ofChars, Text.byteLength, Nat.add_assoc]
  | case3 c rest other inside beyond body ih =>
    have goesOn : ¬ (c = '*' ∧ (rest.head?.or none) = some '/') := by
      rintro ⟨rfl, slash⟩
      cases rest with
      | nil => cases slash
      | cons d rest =>
        obtain rfl : d = '/' := by simpa using slash
        exact other rest rfl rfl
    simp only [shade, Mode.hides, Mode.step, goesOn, if_false, ih, body, Cell.ofChars,
      Text.byteLength, List.cons_append, Nat.add_assoc]

private theorem shade_literal (quote : Char) (offset : Nat) (text : List Char) :
    shade (.literal quote) offset text none =
      Cell.ofChars false offset (Lexeme.literalBody quote text).1 ++
        (Cell.ofChars false (offset + Text.byteLength (Lexeme.literalBody quote text).1)
            (Lexeme.literalBody quote text).2.1.toList ++
          shade .code (offset + (Text.byteLength (Lexeme.literalBody quote text).1 +
              Text.byteLength (Lexeme.literalBody quote text).2.1.toList))
            (Lexeme.literalBody quote text).2.2 none) := by
  fun_induction Lexeme.literalBody quote text generalizing offset with
  | case1 => rfl
  | case2 c rest ends =>
    simp [shade, Mode.hides, Mode.step, ends, Cell.ofChars, Text.byteLength]
  | case3 => simp [shade, Mode.hides, Cell.ofChars, Text.byteLength]
  | case4 escaped rest inside close beyond body ends ih =>
    have goesOn : '\\' ≠ quote := fun same => ends (Or.inl same)
    simp [shade, Mode.hides, Mode.step, goesOn, ih, body, Cell.ofChars, Text.byteLength,
      Nat.add_assoc]
  | case5 c rest ends plain inside close beyond body ih =>
    simp [shade, Mode.hides, Mode.step, ends, plain, ih, body, Cell.ofChars, Text.byteLength,
      Nat.add_assoc]

/-- The machine agrees with the cells of a token, whatever comes after it. -/
theorem shade_next (offset : Nat) (c : Char) (rest : List Char) :
    shade .code offset (c :: rest) none = (Lexeme.next c rest).1.cells false offset ++
      shade .code (offset + Text.byteLength (Lexeme.next c rest).1.text) (Lexeme.next c rest).2
        none := by
  unfold Lexeme.next
  split
  · rename_i body
    have opened := shade_line (offset + '/'.utf8Size + '/'.utf8Size) body
    simpa [shade, Mode.hides, Mode.step, Lexeme.cells, Lexeme.text, Cell.ofChars, Text.byteLength,
      Nat.add_assoc] using opened
  · rename_i body
    have opened := shade_block (offset + '/'.utf8Size + '*'.utf8Size) body
    simpa [shade, Mode.hides, Mode.step, Lexeme.cells, Lexeme.text, Cell.ofChars, Text.byteLength,
      Nat.add_assoc] using opened
  · rename_i noLine noBlock
    have notLine : ¬ (c = '/' ∧ rest.head?.or none = some '/') := by
      rintro ⟨rfl, slash⟩
      cases rest with
      | nil => cases slash
      | cons d rest =>
        obtain rfl : d = '/' := by simpa using slash
        exact noLine rest rfl rfl
    have notBlock : ¬ (c = '/' ∧ rest.head?.or none = some '*') := by
      rintro ⟨rfl, star⟩
      cases rest with
      | nil => cases star
      | cons d rest =>
        obtain rfl : d = '*' := by simpa using star
        exact noBlock rest rfl rfl
    have visible : Mode.code.hides c (rest.head?.or none) = false := by
      simp only [Mode.hides, decide_eq_false_iff_not]
      rintro ⟨slash, next | next⟩
      · exact notLine ⟨slash, next⟩
      · exact notBlock ⟨slash, next⟩
    simp only [shade, visible, Mode.step, notLine, notBlock, if_false]
    split
    · rw [shade_literal]
      simp [Lexeme.cells, Lexeme.text, Cell.ofChars, Text.byteLength, byte_length_append,
        Nat.add_assoc]
    · simp [Lexeme.cells, Lexeme.text, Cell.ofChars, Text.byteLength]

/-- The cells of tokens are those that the machine makes of their text, wherever they start. -/
theorem cells_from_eq_shade (offset : Nat) (text : List Char) :
    cellsFrom false offset (Lexeme.scan text) = shade .code offset text none := by
  fun_induction Lexeme.scan text generalizing offset with
  | case1 => rfl
  | case2 c rest found ih => rw [cellsFrom, ih, shade_next]

/-- The cells of a text are those that the machine makes of it. -/
theorem cells_eq_shade (text : List Char) : cells false text = shade .code 0 text none :=
  cells_from_eq_shade 0 text

end Tokens

/-- A character of the paths and names that are written between quotes. -/
def isPlain (c : Char) : Bool :=
  ('A' ≤ c && c ≤ 'Z') || ('a' ≤ c && c ≤ 'z') || ('0' ≤ c && c ≤ '9') ||
    ['_', '-', '.', '/', '@'].contains c

/-- The characters that literals are quoted with. -/
def IsQuote (c : Char) : Prop := c = '"' ∨ c = '\''

theorem plain_ne {c special : Char} (plain : isPlain c = true) (other : isPlain special = false) :
    c ≠ special := by
  rintro rfl
  exact absurd plain (by simp [other])

theorem quote_ne {c special : Char} (quoted : IsQuote c) (other : special ≠ '"' ∧ special ≠ '\'') :
    c ≠ special := by
  rintro rfl
  exact quoted.elim other.1 other.2

/-- Literals are in quotes. -/
def Mode.Proper : Mode → Prop
  | literal quote | escape quote => IsQuote quote
  | _ => True

/-- A text changes nothing and hides nothing. -/
structure Quiet (mode : Mode) (text : List Char) (after : Option Char) : Prop where
  stays : mode.run text after = mode
  visible : ∀ offset, shade mode offset text after = Cell.ofChars false offset text

section Literals
variable {mode : Mode} {text : List Char} {after next : Option Char} {quote : Char}

theorem proper_step (proper : mode.Proper) (c : Char) (next : Option Char) :
    (mode.step c next).Proper := by
  cases mode with
  | code =>
    simp only [Mode.step]
    split
    · trivial
    · split
      · trivial
      · split
        · assumption
        · trivial
  | literal quote =>
    simp only [Mode.step]
    split
    · trivial
    · split
      · exact proper
      · exact proper
  | line =>
    simp only [Mode.step]
    split <;> trivial
  | block =>
    simp only [Mode.step]
    split <;> trivial
  | openLine => trivial
  | openBlock => trivial
  | closeBlock => trivial
  | escape quote => exact proper

theorem proper_run (proper : mode.Proper) (text : List Char) (after : Option Char) :
    (mode.run text after).Proper := by
  induction text generalizing mode with
  | nil => exact proper
  | cons c text ih => exact ih (proper_step proper c _)

private theorem backslash_of_escape {c : Char} (escaped : mode.step c next = .escape quote) :
    c = '\\' ∧ mode.hides c next = false := by
  cases mode with
  | literal quote' =>
    simp only [Mode.step] at escaped
    split at escaped
    · cases escaped
    · split at escaped
      · exact ⟨‹_›, rfl⟩
      · cases escaped
  | _ => grind [Mode.step]

/-- A character is escaped only by a backslash that is seen before it. -/
theorem escaped_by_backslash (offset : Nat) (nonempty : text ≠ [])
    (escaped : mode.run text after = .escape quote) :
    ∃ cell ∈ (shade mode offset text after).getLast?, cell.face = '\\' := by
  obtain ⟨front, c, rfl⟩ := (List.eq_nil_or_concat text).resolve_left nonempty
  rw [List.concat_eq_append] at escaped ⊢
  rw [run_append] at escaped
  obtain ⟨rfl, visible⟩ := backslash_of_escape escaped
  have seen : (mode.run front (some '\\')).hides '\\' after = false := visible
  rw [shade_append]
  refine ⟨⟨'\\', offset + Text.byteLength front, _⟩, by simp [shade]; rfl, ?_⟩
  simp [Cell.face, seen]

/-- A quote that is seen and not escaped opens a literal, closes one, or stands in one with other
quotes. -/
theorem opened_cases (proper : mode.Proper) (free : ∀ quote, mode ≠ .escape quote)
    (quoted : IsQuote quote) (visible : mode.hides quote next = false) :
    mode.step quote next = .code ∨ ∃ outer, IsQuote outer ∧ mode.step quote next = .literal outer := by
  have slash : quote ≠ '/' := quote_ne quoted (by decide)
  have newline : quote ≠ '\n' := quote_ne quoted (by decide)
  have backslash : quote ≠ '\\' := quote_ne quoted (by decide)
  cases mode with
  | code =>
    have opens : quote = '"' ∨ quote = '\'' := quoted
    exact Or.inr ⟨quote, quoted, by simp [Mode.step, slash, opens]⟩
  | literal outer =>
    by_cases closes : quote = outer
    · exact Or.inl (by simp [Mode.step, closes])
    · exact Or.inr ⟨outer, proper, by simp [Mode.step, closes, newline, backslash]⟩
  | escape outer => exact absurd rfl (free outer)
  | line => simp [Mode.hides, newline] at visible
  | openLine => cases visible
  | openBlock => cases visible
  | block => cases visible
  | closeBlock => cases visible

theorem quiet_in_literal (quoted : IsQuote quote) (plain : ∀ c ∈ text, isPlain c = true) :
    Quiet (.literal quote) text after := by
  induction text with
  | nil => exact ⟨rfl, fun _ => rfl⟩
  | cons c text ih =>
    have own := plain c (by simp)
    have other : c ≠ quote := by
      rcases quoted with rfl | rfl
      · exact plain_ne own (by decide)
      · exact plain_ne own (by decide)
    have step : ∀ next, (Mode.literal quote).step c next = .literal quote := by
      intro next
      simp [Mode.step, other, plain_ne own (show isPlain '\n' = false by decide),
        plain_ne own (show isPlain '\\' = false by decide)]
    obtain ⟨stays, visible⟩ := ih fun c inside => plain c (List.mem_cons_of_mem _ inside)
    refine ⟨by rw [Mode.run, step, stays], fun offset => ?_⟩
    rw [shade, step, visible]
    rfl

theorem quiet_in_code (plain : ∀ c ∈ text, isPlain c = true) (whole : '/' ∉ text) :
    Quiet .code text after := by
  induction text with
  | nil => exact ⟨rfl, fun _ => rfl⟩
  | cons c text ih =>
    have own := plain c (by simp)
    have slash : c ≠ '/' := fun same => whole (by simp [same])
    have step : ∀ next, Mode.code.step c next = .code := by
      intro next
      simp [Mode.step, slash, plain_ne own (show isPlain '"' = false by decide),
        plain_ne own (show isPlain '\'' = false by decide)]
    obtain ⟨stays, visible⟩ := ih (fun c inside => plain c (List.mem_cons_of_mem _ inside))
      fun inside => whole (List.mem_cons_of_mem _ inside)
    refine ⟨by rw [Mode.run, step, stays], fun offset => ?_⟩
    rw [shade, step, visible]
    simp [Mode.hides, slash, Cell.ofChars]

private theorem run_line (whole : '\n' ∉ text) : Mode.line.run text after = .line := by
  induction text with
  | nil => rfl
  | cons c text ih =>
    have other : c ≠ '\n' := fun same => whole (by simp [same])
    rw [Mode.run, show Mode.line.step c _ = .line by simp [Mode.step, other]]
    exact ih fun inside => whole (List.mem_cons_of_mem _ inside)

/-- Two slashes would hide the quote that comes after the text. -/
theorem quiet_before_quote (plain : ∀ c ∈ text, isPlain c = true) (quoted : IsQuote quote)
    (visible : (Mode.code.run text (some quote)).hides quote next = false) :
    Quiet .code text (some quote) := by
  induction text with
  | nil => exact ⟨rfl, fun _ => rfl⟩
  | cons c text ih =>
    have own := plain c (by simp)
    have rest : ∀ c ∈ text, isPlain c = true := fun c inside =>
      plain c (List.mem_cons_of_mem _ inside)
    have unbroken : '\n' ∉ text := fun inside => absurd (rest _ inside) (by decide)
    have noLine : ¬ (c = '/' ∧ text.head?.or (some quote) = some '/') := by
      rintro ⟨rfl, slash⟩
      cases text with
      | nil => exact quote_ne quoted (by decide) (Option.some.inj slash)
      | cons d text =>
        obtain rfl : d = '/' := by simpa using slash
        have hidden : (Mode.line.run text (some quote)).hides quote next = false := visible
        rw [run_line fun inside => unbroken (List.mem_cons_of_mem _ inside)] at hidden
        simp [Mode.hides, quote_ne quoted (show '\n' ≠ '"' ∧ '\n' ≠ '\'' by decide)] at hidden
    have noBlock : ¬ (c = '/' ∧ text.head?.or (some quote) = some '*') := by
      rintro ⟨rfl, star⟩
      cases text with
      | nil => exact quote_ne quoted (by decide) (Option.some.inj star)
      | cons d text =>
        obtain rfl : d = '*' := by simpa using star
        exact absurd (rest '*' (by simp)) (by decide)
    have step : Mode.code.step c (text.head?.or (some quote)) = .code := by
      simp only [Mode.step, noLine, noBlock, if_false,
        plain_ne own (show isPlain '"' = false by decide),
        plain_ne own (show isPlain '\'' = false by decide), or_self]
    have seen : Mode.code.hides c (text.head?.or (some quote)) = false := by
      simp only [Mode.hides, decide_eq_false_iff_not]
      rintro ⟨slash, next | next⟩
      · exact noLine ⟨slash, next⟩
      · exact noBlock ⟨slash, next⟩
    rw [Mode.run, step] at visible
    obtain ⟨stays, quiet⟩ := ih rest visible
    refine ⟨by rw [Mode.run, step, stays], fun offset => ?_⟩
    rw [shade, step, quiet, seen]
    rfl

/-- A plain text between quotes that are seen can give way to another without slashes: neither does
anything to what follows. -/
theorem quiet_between_quotes {new : List Char} {before : Option Char} (proper : mode.Proper)
    (free : ∀ quote, mode ≠ .escape quote) (quoted : IsQuote quote)
    (opened : mode.hides quote before = false) (plain : ∀ c ∈ text, isPlain c = true)
    (closed : ((mode.step quote before).run text (some quote)).hides quote next = false)
    (plain' : ∀ c ∈ new, isPlain c = true) (whole : '/' ∉ new) :
    Quiet (mode.step quote before) text (some quote) ∧
      Quiet (mode.step quote before) new (some quote) := by
  rcases opened_cases proper free quoted opened with code | ⟨outer, quoted', literal⟩
  · rw [code] at closed ⊢
    exact ⟨quiet_before_quote plain quoted closed, quiet_in_code plain' whole⟩
  · rw [literal]
    exact ⟨quiet_in_literal quoted' plain, quiet_in_literal quoted' plain'⟩

end Literals

end ContractBuild.Shading
