import ContractBuild.Proofs.ImportPlaces
import Mathlib.Data.List.DropRight
import Mathlib.Data.List.Induction

/-! Where an import stands among the tokens of its text. Its keyword is never in a comment and the
quote before its path is never in one either, but both may be in a literal. What the path of an import
is for the tokens depends on that, and on the backslashes at its end, since the scan knows of no
escapes. -/
namespace ContractBuild.ImportsInCode
open ImportPlaces PathWalk Shading Source

/-- Tokens that follow each other from an offset on, each with the place that it starts at. -/
def tokensFrom : (offset : Nat) → List Lexeme → List (Nat × Lexeme)
  | _, [] => []
  | offset, lexeme :: rest =>
    (offset, lexeme) :: tokensFrom (offset + Text.byteLength lexeme.text) rest

/-- The tokens of a text, each with the place that it starts at. -/
def tokens (text : List Char) : List (Nat × Lexeme) := tokensFrom 0 (Lexeme.scan text)

def isCode : Lexeme → Bool
  | .code _ => true
  | _ => false

def isLiteral : Lexeme → Bool
  | .literal .. => true
  | _ => false

/-- A character outside comments and literals starts at a place. -/
def InCode (text : List Char) (place : Nat) : Prop :=
  ∃ token ∈ tokens text, token.1 = place ∧ isCode token.2 = true

/-- A place is in a literal, behind the quote that opens it. -/
def InLiteral (text : List Char) (place : Nat) : Prop :=
  ∃ token ∈ tokens text, isLiteral token.2 = true ∧ token.1 < place ∧
    place < token.1 + Text.byteLength token.2.text

/-- The path of an import is all that is in one literal. -/
def FillsLiteral (text : List Char) (directive : Import) : Prop :=
  ∃ token ∈ tokens text, token.1 + 1 = directive.span.start ∧
    ∃ quote ∈ ['"', '\''], token.2 = .literal quote directive.path.toList (some quote)

/-- How many backslashes a text ends with. -/
def backslashes (text : List Char) : Nat := (text.rtakeWhile (· = '\\')).length

section Decidable
variable (text : List Char) (place : Nat) (directive : Import)

instance : Decidable (InCode text place) := inferInstanceAs (Decidable (∃ token ∈ tokens text, _))

instance : Decidable (InLiteral text place) := inferInstanceAs (Decidable (∃ token ∈ tokens text, _))

instance : Decidable (FillsLiteral text directive) :=
  inferInstanceAs (Decidable (∃ token ∈ tokens text, _ ∧ ∃ quote ∈ ['"', '\''], _))

end Decidable

section Order
variable {offset place : Nat} {lexemes : List Lexeme} {token other : Nat × Lexeme} {text : List Char}

/-- No token starts before the tokens do. -/
theorem starts_from (among : token ∈ tokensFrom offset lexemes) : offset ≤ token.1 := by
  induction lexemes generalizing offset with
  | nil => cases among
  | cons lexeme rest ih =>
    rcases List.mem_cons.mp among with rfl | among
    · exact Nat.le_refl _
    · exact Nat.le_trans (Nat.le_add_right ..) (ih among)

/-- Tokens that cover one place are the same. -/
theorem token_unique (first : token ∈ tokensFrom offset lexemes)
    (second : other ∈ tokensFrom offset lexemes) (covers : token.1 ≤ place)
    (within : place < token.1 + Text.byteLength token.2.text) (covers' : other.1 ≤ place)
    (within' : place < other.1 + Text.byteLength other.2.text) : token = other := by
  induction lexemes generalizing offset with
  | nil => cases first
  | cons lexeme rest ih =>
    rcases List.mem_cons.mp first with rfl | first <;> rcases List.mem_cons.mp second with rfl | second
    · rfl
    · have behind := starts_from second
      dsimp only at within
      omega
    · have behind := starts_from first
      dsimp only at within'
      omega
    · exact ih first second

theorem length_pos (lexeme : Lexeme) : 0 < Text.byteLength lexeme.text := by
  obtain ⟨c, text, whole⟩ := List.exists_cons_of_ne_nil lexeme.text_ne_nil
  have wide := c.utf8Size_pos
  rw [whole, Text.byteLength]
  omega

/-- What is code is in no literal. -/
theorem not_in_literal (code : InCode text place) : ¬ InLiteral text place := by
  rintro ⟨other, among', literal, behind, within'⟩
  obtain ⟨token, among, rfl, code⟩ := code
  have size := length_pos token.2
  obtain rfl := token_unique among among' (Nat.le_refl _) (by omega) (Nat.le_of_lt behind) within'
  exact absurd behind (Nat.lt_irrefl _)

end Order

section Cells
variable {offset : Nat} {hidden : Bool} {text front rest : List Char} {c : Char} {cell : Cell}
  {lexeme : Lexeme} {lexemes : List Lexeme} {token : Nat × Lexeme}

theorem mem_of_chars (among : cell ∈ Cell.ofChars hidden offset text) :
    cell.hidden = hidden ∧ offset ≤ cell.offset ∧ cell.offset < offset + Text.byteLength text := by
  induction text generalizing offset with
  | nil => cases among
  | cons c text ih =>
    have wide := c.utf8Size_pos
    rw [Text.byteLength]
    rcases List.mem_cons.mp among with rfl | among
    · exact ⟨rfl, Nat.le_refl _, by dsimp only; omega⟩
    · obtain ⟨same, covers, within⟩ := ih among
      exact ⟨same, by omega, by omega⟩

/-- What is seen of a token is code or a part of a literal. -/
theorem seen_of_token (among : cell ∈ lexeme.cells false offset) (seen : cell.hidden = false) :
    (isCode lexeme = true ∧ offset = cell.offset) ∨ (isLiteral lexeme = true ∧
      offset ≤ cell.offset ∧ cell.offset < offset + Text.byteLength lexeme.text) := by
  cases lexeme with
  | code c =>
    obtain rfl := List.mem_singleton.mp among
    exact Or.inl ⟨rfl, rfl⟩
  | lineComment body =>
    rw [(mem_of_chars among).1] at seen
    cases seen
  | blockComment body =>
    rw [(mem_of_chars among).1] at seen
    cases seen
  | literal quote inside close =>
    have whole : Text.byteLength (Lexeme.literal quote inside close).text =
        quote.utf8Size + (Text.byteLength inside + Text.byteLength close.toList) := by
      rw [Lexeme.text, List.cons_append, Text.byteLength, byte_length_append]
    refine Or.inr ⟨rfl, ?_⟩
    rw [whole]
    simp only [Lexeme.cells, List.mem_append, or_assoc] at among
    rcases among with among | among | among
    · obtain ⟨-, covers, within⟩ := mem_of_chars among
      simp only [Text.byteLength] at within
      exact ⟨covers, by omega⟩
    · obtain ⟨-, covers, within⟩ := mem_of_chars among
      exact ⟨by omega, by omega⟩
    · obtain ⟨-, covers, within⟩ := mem_of_chars among
      exact ⟨by omega, by omega⟩

/-- What is seen of a text is code or a part of a literal. -/
theorem seen_of_tokens (among : cell ∈ cellsFrom false offset lexemes) (seen : cell.hidden = false) :
    ∃ token ∈ tokensFrom offset lexemes,
      (isCode token.2 = true ∧ token.1 = cell.offset) ∨ (isLiteral token.2 = true ∧
        token.1 ≤ cell.offset ∧ cell.offset < token.1 + Text.byteLength token.2.text) := by
  induction lexemes generalizing offset with
  | nil => cases among
  | cons lexeme rest ih =>
    rcases List.mem_append.mp among with among | among
    · exact ⟨(offset, lexeme), List.mem_cons_self .., seen_of_token among seen⟩
    · obtain ⟨token, among, stands⟩ := ih among
      exact ⟨token, List.mem_cons_of_mem _ among, stands⟩

/-- The cells from a place on do not tell what came before a token. -/
def Restarts (front : List Char) (place : Nat) (text : List Char) : Prop :=
  shade (Mode.code.run front text.head?) place text none = shade .code place text none

/-- The lexer is at its beginning where a token starts. -/
theorem restarts_of_token (among : token ∈ tokensFrom offset (Lexeme.scan text)) :
    ∃ front c rest, text = front ++ c :: rest ∧
      token = (offset + Text.byteLength front, (Lexeme.next c rest).1) ∧
      Restarts front token.1 (c :: rest) := by
  induction text using Lexeme.scan.induct generalizing offset with
  | case1 =>
    rw [Lexeme.scan] at among
    cases among
  | case2 c rest found =>
    rename_i ih
    rw [Lexeme.scan] at among
    rcases List.mem_cons.mp among with rfl | among
    · exact ⟨[], c, rest, rfl, rfl, rfl⟩
    · obtain ⟨front, d, beyond, whole, rfl, restarts⟩ := ih among
      -- Both ways of telling the cells of the text agree on those behind the first token.
      have both := shade_append .code offset (Lexeme.next c rest).1.text (Lexeme.next c rest).2 none
      rw [Lexeme.next_append, shade_next] at both
      have behind := (List.append_inj' both (by simp)).2
      rw [whole, shade_append, shade_append] at behind
      have last := (List.append_inj' behind (by simp)).2
      refine ⟨(Lexeme.next c rest).1.text ++ front, d, beyond, ?_, ?_, ?_⟩
      · rw [List.append_assoc, ← whole, Lexeme.next_append]
      · rw [byte_length_append, Nat.add_assoc]
      · unfold Restarts at restarts ⊢
        rw [← restarts, run_append]
        simpa using last.symm

/-- A text is cut in one way at one place. -/
theorem split_unique {front' rest' : List Char} (same : front ++ rest = front' ++ rest')
    (place : Text.byteLength front = Text.byteLength front') : front = front' ∧ rest = rest' := by
  have cut := Text.cutAt?_append front rest
  rw [same, place, Text.cutAt?_append] at cut
  obtain ⟨rfl, rfl⟩ := Prod.mk.inj (Option.some.inj cut)
  exact ⟨rfl, rfl⟩

/-- The token that starts at a place. -/
theorem token_at (among : token ∈ tokens (front ++ c :: rest))
    (place : token.1 = Text.byteLength front) :
    token.2 = (Lexeme.next c rest).1 ∧ Restarts front token.1 (c :: rest) := by
  obtain ⟨front', c', rest', whole, rfl, restarts⟩ := restarts_of_token among
  rw [Nat.zero_add] at place
  obtain ⟨rfl, same⟩ := split_unique whole place.symm
  obtain ⟨rfl, rfl⟩ := List.cons.inj same
  exact ⟨rfl, restarts⟩

/-- A token starts at what is seen and not in a literal. -/
theorem token_of_seen (outside : ¬ InLiteral (front ++ c :: rest) (Text.byteLength front))
    (seen : (Mode.code.run front (some c)).hides c rest.head? = false) :
    ∃ token ∈ tokens (front ++ c :: rest), token.1 = Text.byteLength front := by
  have among : Cell.mk c (Text.byteLength front) false ∈ cellsFrom false 0
      (Lexeme.scan (front ++ c :: rest)) := by
    rw [cells_from_eq_shade, shade_append, List.mem_append, shade]
    refine Or.inr (List.mem_cons.mpr (Or.inl ?_))
    simp [seen]
  obtain ⟨token, among, code | ⟨literal, covers, within⟩⟩ := seen_of_tokens among rfl
  · exact ⟨token, among, code.2⟩
  · rcases Nat.lt_or_eq_of_le covers with behind | start
    · exact absurd ⟨token, among, literal, behind, within⟩ outside
    · exact ⟨token, among, start⟩

end Cells

section Literals
variable {mode : Mode} {quote : Char} {offset : Nat} {path rest : List Char} {after : Option Char}

/-- What is seen in a literal is in the text. -/
theorem unquoted_of_seen (inner : mode = .literal quote ∨ mode = .escape quote)
    (inside : ∀ cell ∈ shade mode offset path after, cell.face ≠ quote ∧ cell.face ≠ '\n') :
    ∀ c ∈ path, c ≠ quote ∧ c ≠ '\n' := by
  induction path generalizing mode offset with
  | nil => simp
  | cons c path ih =>
    rw [shade, List.forall_mem_cons] at inside
    obtain ⟨first, others⟩ := inside
    have visible : mode.hides c (path.head?.or after) = false := by
      rcases inner with rfl | rfl <;> rfl
    have own : c ≠ quote ∧ c ≠ '\n' := by simpa [Cell.face, visible] using first
    refine List.forall_mem_cons.mpr ⟨own, ih ?_ others⟩
    rcases inner with rfl | rfl
    · by_cases backslash : c = '\\'
      · subst backslash
        exact Or.inr (by simp [Mode.step, own])
      · exact Or.inl (by simp [Mode.step, own, backslash])
    · exact Or.inl rfl

/-- A text without quotes and newlines ends with an escape if its last backslashes are not in pairs. -/
theorem run_literal (quoted : IsQuote quote) (plain : ∀ c ∈ path, c ≠ quote ∧ c ≠ '\n') :
    (Mode.literal quote).run path after =
      if backslashes path % 2 = 0 then .literal quote else .escape quote := by
  have other : '\\' ≠ quote := (quote_ne quoted (by decide)).symm
  induction path using List.reverseRecOn generalizing after with
  | nil => simp [Mode.run, backslashes]
  | append_singleton path c ih =>
    obtain ⟨own, inner⟩ := plain c (by simp)
    rw [run_append, ih fun c among => plain c (List.mem_append_left _ among)]
    by_cases backslash : c = '\\'
    · subst backslash
      have count : backslashes (path ++ ['\\']) = backslashes path + 1 := by
        rw [backslashes, List.rtakeWhile_concat_pos _ _ _ (by simp), List.length_append]
        rfl
      rw [count]
      by_cases pairs : backslashes path % 2 = 0
      · have odd : (backslashes path + 1) % 2 ≠ 0 := by omega
        simp [Mode.run, Mode.step, pairs, odd, other]
      · have even : (backslashes path + 1) % 2 = 0 := by omega
        simp [Mode.run, Mode.step, pairs, even]
    · have none : backslashes (path ++ [c]) = 0 := by
        rw [backslashes, List.rtakeWhile_concat_neg _ _ _ (by simpa using backslash)]
        rfl
      rw [none]
      by_cases pairs : backslashes path % 2 = 0
      · simp [Mode.run, Mode.step, pairs, own, inner, backslash]
      · simp [Mode.run, Mode.step, pairs]

/-- A literal ends at its quote if that is not escaped. -/
theorem body_of_literal (rest : List Char) (quoted : IsQuote quote)
    (plain : ∀ c ∈ path, c ≠ quote ∧ c ≠ '\n') :
    ((Lexeme.literalBody quote (path ++ quote :: rest)).1 = path ∧
      (Lexeme.literalBody quote (path ++ quote :: rest)).2.1 = some quote) ↔
      (Mode.literal quote).run path none = .literal quote := by
  have other : '\\' ≠ quote := (quote_ne quoted (by decide)).symm
  -- A backslash takes the character after it along.
  induction path using List.twoStepInduction with
  | nil => simp [Lexeme.literalBody.eq_def, Mode.run]
  | singleton c =>
    obtain ⟨own, inner⟩ := plain c (by simp)
    by_cases backslash : c = '\\'
    · subst backslash
      simp [Lexeme.literalBody, Mode.run, Mode.step, other]
    · simp [Lexeme.literalBody.eq_def, Mode.run, Mode.step, own, inner, backslash]
  | cons_cons c d path ih ih' =>
    obtain ⟨own, inner⟩ := plain c (by simp)
    by_cases backslash : c = '\\'
    · subst backslash
      have after := ih fun c among => plain c (List.mem_cons_of_mem _ (List.mem_cons_of_mem _ among))
      simpa [Lexeme.literalBody, Mode.run, Mode.step, own] using after
    · have after := ih' d fun c among => plain c (List.mem_cons_of_mem _ among)
      rw [List.cons_append, Lexeme.literalBody.eq_def]
      simpa [Mode.run, Mode.step, own, inner, backslash] using after

theorem next_quote (quoted : IsQuote quote) (rest : List Char) :
    (Lexeme.next quote rest).1 = .literal quote (Lexeme.literalBody quote rest).1
      (Lexeme.literalBody quote rest).2.1 := by
  rcases quoted with rfl | rfl <;> simp [Lexeme.next]

/-- The literal that starts at a quote has a path in it, up to the quote behind the path, if the
backslashes at the end of the path are in pairs. -/
theorem literal_iff_pairs (quoted : IsQuote quote) (plain : ∀ c ∈ path, c ≠ quote ∧ c ≠ '\n') :
    (Lexeme.next quote (path ++ quote :: rest)).1 = .literal quote path (some quote) ↔
      backslashes path % 2 = 0 := by
  rw [next_quote quoted, Lexeme.literal.injEq]
  have closed := body_of_literal rest quoted plain
  rw [run_literal quoted plain] at closed
  simpa using closed

end Literals

/-- A word stands at a place of a text. -/
def StandsAt (text word : List Char) (place : Nat) : Prop :=
  ∃ front rest, text = front ++ (word ++ rest) ∧ place = Text.byteLength front

section Imports
variable {text lead front path rest : List Char} {quote : Char} {directive : Import}

/-- What an import lies in, told from the beginning of the text. -/
theorem opened_of_lies
    (lies : Lies (Mode.code.run lead (some 'i')) (Text.byteLength lead) front quote path directive) :
    Mode.code.run (lead ++ front) (some quote) =
        (Mode.code.run lead (some 'i')).run front (some quote) ∧
      directive.span.start = Text.byteLength (lead ++ front) + 1 ∧
      directive.path.toList = path := by
  obtain ⟨letters, rfl⟩ := lies.spelled
  refine ⟨run_append .., ?_, ?_⟩
  · rw [lies.eq]
    simp only [byte_length_append, Text.byteLength, quote_size lies.quoted]
    omega
  · rw [lies.eq, String.toList_ofList]

/-- A path in a literal that starts at the quote before it has no such quote in it. -/
theorem plain_of_restarts
    (lies : Lies (Mode.code.run lead (some 'i')) (Text.byteLength lead) front quote path directive)
    (restarts : Restarts (lead ++ front) (Text.byteLength (lead ++ front))
      (quote :: (path ++ quote :: rest))) : ∀ c ∈ path, c ≠ quote ∧ c ≠ '\n' := by
  have slash : quote ≠ '/' := quote_ne lies.quoted (by decide)
  have opens : Mode.code.step quote none = .literal quote := by
    have quoted : quote = '"' ∨ quote = '\'' := lies.quoted
    simp [Mode.step, slash, quoted]
  have place : Text.byteLength (lead ++ front) + quote.utf8Size =
      Text.byteLength lead + Text.byteLength (front ++ [quote]) := by
    simp only [byte_length_append, Text.byteLength]
    omega
  rw [Restarts, List.head?_cons, (opened_of_lies lies).1, shade, shade] at restarts
  have inner := (List.cons.inj restarts).2
  rw [(step_quote lies.quoted _ _).1, (step_quote lies.quoted .code _).1, opens, shade_append,
    shade_append, place] at inner
  have same := (List.append_inj inner (by simp)).1
  rw [List.head?_cons, Option.some_or] at same
  have inside := lies.inside
  rw [same] at inside
  exact unquoted_of_seen (Or.inl rfl) inside

/-- The keyword of an import is not in a comment. -/
theorem in_code_iff
    (lies : Lies (Mode.code.run lead (some 'i')) (Text.byteLength lead) front quote path directive) :
    InCode (lead ++ (front ++ rest)) (Text.byteLength lead) ↔
      ¬ InLiteral (lead ++ (front ++ rest)) (Text.byteLength lead) := by
  refine ⟨not_in_literal, fun outside => ?_⟩
  obtain ⟨letters, rfl⟩ := lies.spelled
  have outside' : ¬ InLiteral (lead ++ 'i' :: (['m', 'p', 'o', 'r', 't'] ++ (letters ++ rest)))
      (Text.byteLength lead) := by simpa [keyword] using outside
  obtain ⟨token, among, place⟩ := token_of_seen outside' lies.begins
  refine ⟨token, by simpa [keyword] using among, place, ?_⟩
  rw [(token_at among place).1]
  rfl

/-- The path of an import fills a literal if the quote before it is in none and the one behind it is
not escaped. -/
theorem fills_literal_iff (rest : List Char)
    (lies : Lies (Mode.code.run lead (some 'i')) (Text.byteLength lead) front quote path directive) :
    FillsLiteral ((lead ++ front) ++ quote :: (path ++ quote :: rest)) directive ↔
      ¬ InLiteral ((lead ++ front) ++ quote :: (path ++ quote :: rest)) (directive.span.start - 1) ∧
        backslashes directive.path.toList % 2 = 0 := by
  obtain ⟨opened, start, named⟩ := opened_of_lies lies
  rw [FillsLiteral, start, named, Nat.add_sub_cancel]
  constructor
  · rintro ⟨token, among, place, quote', -, own⟩
    have place := Nat.succ.inj place
    obtain ⟨next, restarts⟩ := token_at among place
    rw [place] at restarts
    have plain := plain_of_restarts lies restarts
    have same : quote' = quote := by
      rw [own, next_quote lies.quoted] at next
      exact (Lexeme.literal.inj next).1
    rw [own, same] at next
    refine ⟨?_, (literal_iff_pairs lies.quoted plain).mp next.symm⟩
    rintro ⟨other, among', -, behind, within⟩
    have size := length_pos token.2
    obtain rfl := token_unique among among' (Nat.le_of_eq place) (by omega) (Nat.le_of_lt behind) within
    omega
  · rintro ⟨outside, pairs⟩
    have seen : (Mode.code.run (lead ++ front) (some quote)).hides quote
        (path ++ quote :: rest).head? = false := by
      rw [opened, (step_quote lies.quoted _ _).2, lies.opened]
    obtain ⟨token, among, place⟩ := token_of_seen outside seen
    obtain ⟨next, restarts⟩ := token_at among place
    rw [place] at restarts
    have plain := plain_of_restarts lies restarts
    have quoted : quote = '"' ∨ quote = '\'' := lies.quoted
    refine ⟨token, among, by rw [place], quote, by simpa using quoted, ?_⟩
    rw [next, (literal_iff_pairs lies.quoted plain).mpr pairs]

end Imports

/-- Where the imports of a text stand. Their keywords are in code or in literals, and each path is all
that is in one literal unless the quote before it is in another one or the quote behind it is escaped. -/
theorem import_in_code_iff (text : List Char) :
    (placed text).map Prod.snd = Import.scan text ∧
    ∀ start directive, (start, directive) ∈ placed text →
      StandsAt text keyword start ∧
      (InCode text start ↔ ¬ InLiteral text start) ∧
      (FillsLiteral text directive ↔ ¬ InLiteral text (directive.span.start - 1) ∧
        backslashes directive.path.toList % 2 = 0) := by
  refine ⟨imports_of_placed text, fun start directive among => ?_⟩
  obtain ⟨lead, front, quote, path, rest, rfl, rfl, lies⟩ := lies_of_scans (scans_of_text text) among
  rw [Nat.zero_add] at lies ⊢
  refine ⟨?_, in_code_iff lies, ?_⟩
  · obtain ⟨letters, rfl⟩ := lies.spelled
    exact ⟨lead, letters ++ (quote :: (path ++ quote :: rest)), by simp, rfl⟩
  · have fills := fills_literal_iff rest lies
    simpa using fills

/-- An import that nothing stands before. -/
def firstImport : List Char := "import 'a.sol'; // 'b.sol'".toList

/-- It is in code, and its path fills a literal. -/
theorem first_import_in_code :
    (0, ⟨"a.sol", ⟨8, 13⟩⟩) ∈ placed firstImport ∧ InCode firstImport 0 ∧
      FillsLiteral firstImport ⟨"a.sol", ⟨8, 13⟩⟩ := by
  have found : (0, ⟨"a.sol", ⟨8, 13⟩⟩) ∈ placed firstImport := by decide +kernel
  obtain ⟨-, inCode, fills⟩ := (import_in_code_iff firstImport).2 _ _ found
  exact ⟨found, inCode.mpr (by decide +kernel), fills.mpr (by decide +kernel)⟩

/-- A string constant that reads like an import. -/
def quotedImport : List Char := "string constant s = \"import 'fake.sol'\";".toList

/-- It is taken for an import, though neither its keyword nor its path is more than a part of a
string. -/
theorem quoted_import_found : ∃ place ∈ placed quotedImport,
    place.2.path = "fake.sol" ∧ ¬ InCode quotedImport place.1 ∧ ¬ FillsLiteral quotedImport place.2 := by
  decide +kernel

end ContractBuild.ImportsInCode
