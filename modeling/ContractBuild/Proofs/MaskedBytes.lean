import ContractBuild.Proofs.ByteForms
import ContractBuild.Source.Mask
import Mathlib.Data.List.Basic

/-! Masking, told byte by byte. A lexer that knows nothing of characters says what each byte of a text
is part of; the mask has a space for each byte of a comment, and for each byte inside a literal if
literals are hidden, and all other bytes as they are. No byte of a character that takes several is a
mark of the lexer, so whole characters are hidden or none of their bytes, and the mask is UTF-8
again. -/
namespace ContractBuild.MaskedBytes
open ByteForms Source

/-- What a byte is part of. -/
inductive Part where
  /-- Code, with the quotes around literals and the newlines that end lines. -/
  | code
  /-- A comment, with the bytes that open and close it. -/
  | comment
  /-- The inside of a literal. -/
  | inside
  deriving DecidableEq

def slash : UInt8 := 0x2F

def star : UInt8 := 0x2A

def newline : UInt8 := 0x0A

def backslash : UInt8 := 0x5C

def space : UInt8 := 0x20

/-- Whether a byte opens a literal and closes it. -/
def IsQuote (byte : UInt8) : Prop := byte = 0x22 ∨ byte = 0x27

instance (byte : UInt8) : Decidable (IsQuote byte) := inferInstanceAs (Decidable (_ ∨ _))

/-- What the lexer is in the middle of. -/
inductive State where
  | code
  /-- Between the two slashes that open a comment. -/
  | openLine
  | line
  /-- Between the slash and the star that open a comment. -/
  | openBlock
  | block
  /-- Between the star and the slash that close a comment. -/
  | closeBlock
  | literal (quote : UInt8)
  /-- After a backslash in a literal. -/
  | escape (quote : UInt8)
  deriving DecidableEq

namespace State

/-- The state after a byte, the one after it being looked at already. -/
def step (state : State) (byte : UInt8) (next : Option UInt8) : State :=
  match state with
  | code =>
    if byte = slash ∧ next = some slash then openLine
    else if byte = slash ∧ next = some star then openBlock
    else if IsQuote byte then literal byte
    else code
  | openLine => line
  | line => if byte = newline then code else line
  | openBlock => block
  | block => if byte = star ∧ next = some slash then closeBlock else block
  | closeBlock => code
  | literal quote =>
    if byte = quote ∨ byte = newline then code
    else if byte = backslash then escape quote
    else literal quote
  | escape quote => literal quote

/-- What a byte is part of. -/
def part (state : State) (byte : UInt8) (next : Option UInt8) : Part :=
  match state with
  | code => if byte = slash ∧ (next = some slash ∨ next = some star) then .comment else .code
  | line => if byte = newline then .code else .comment
  | openLine | openBlock | block | closeBlock => .comment
  | literal quote => if byte = quote ∨ byte = newline then .code else .inside
  | escape _ => .inside

end State

/-- What each byte of a text is part of. -/
def parts (state : State) (bytes : Bytes) : List Part :=
  match bytes with
  | [] => []
  | byte :: rest => state.part byte rest.head? :: parts (state.step byte rest.head?) rest

/-- Whether a byte is hidden that is of some part. -/
def Part.isHidden (hideLiterals : Bool) : Part → Bool
  | code => false
  | comment => true
  | inside => hideLiterals

/-- A byte as it is seen. A newline is never hidden. -/
def seen (hideLiterals : Bool) (part : Part) (byte : UInt8) : UInt8 :=
  if part.isHidden hideLiterals ∧ byte ≠ newline then space else byte

@[simp] theorem length_parts (state : State) (bytes : Bytes) :
    (parts state bytes).length = bytes.length := by
  induction bytes generalizing state with
  | nil => rfl
  | cons byte bytes ih => rw [parts, List.length_cons, ih, List.length_cons]

section Characters
variable {c mark : Char} {byte : UInt8} {text : List Char}

/-- The characters that mean something to the lexer. -/
private def marks : List Char := ['/', '*', '\n', '\\', '"', '\'']

/-- The byte of a character that takes one. -/
def byteOf (c : Char) : UInt8 := UInt8.ofNat c.toNat

private theorem bytes_of_ascii (ascii : c.toNat < 0x80) : String.utf8EncodeChar c = [byteOf c] := by
  have short : c.val.toNat ≤ 127 := Nat.le_of_lt_succ ascii
  simp only [String.utf8EncodeChar, if_pos short]
  rfl

/-- A character that takes several bytes has none that is a character of its own. -/
private theorem bytes_of_wide (wide : 0x80 ≤ c.toNat) (inside : byte ∈ String.utf8EncodeChar c) :
    0x80 ≤ byte.toNat := by
  have long : ¬ c.val.toNat ≤ 127 := Nat.not_le.mpr wide
  simp only [String.utf8EncodeChar, if_neg long] at inside
  split at inside
  · simp only [List.mem_cons, List.not_mem_nil, or_false] at inside
    rcases inside with rfl | rfl <;> simp only [UInt8.toNat_ofNat'] <;> omega
  · split at inside
    · simp only [List.mem_cons, List.not_mem_nil, or_false] at inside
      rcases inside with rfl | rfl | rfl <;> simp only [UInt8.toNat_ofNat'] <;> omega
    · simp only [List.mem_cons, List.not_mem_nil, or_false] at inside
      rcases inside with rfl | rfl | rfl | rfl <;> simp only [UInt8.toNat_ofNat'] <;> omega

private theorem marks_ascii : ∀ mark ∈ marks, mark.toNat < 0x80 ∧ (byteOf mark).toNat < 0x80 := by
  have ascii : marks.all (fun mark =>
      decide (mark.toNat < 0x80 ∧ (byteOf mark).toNat < 0x80)) = true := by decide
  simpa only [List.all_eq_true, decide_eq_true_eq] using ascii

private theorem byte_of_mark : ∀ mark ∈ marks, ∀ n < 0x80, UInt8.ofNat n = byteOf mark →
    Char.ofNat n = mark := by
  have own : marks.all (fun mark => (List.range 0x80).all fun n =>
      decide (UInt8.ofNat n = byteOf mark → Char.ofNat n = mark)) = true := by decide
  simpa only [List.all_eq_true, List.mem_range, decide_eq_true_eq] using own

/-- A character with the byte of a mark is the mark. -/
private theorem eq_of_byte (listed : mark ∈ marks) (inside : byteOf mark ∈ String.utf8EncodeChar c) :
    c = mark := by
  by_cases ascii : c.toNat < 0x80
  · rw [bytes_of_ascii ascii, List.mem_singleton] at inside
    rw [← byte_of_mark mark listed c.toNat ascii inside.symm, Char.ofNat_toNat]
  · have wide := bytes_of_wide (Nat.le_of_not_lt ascii) inside
    exact absurd (marks_ascii mark listed).2 (Nat.not_lt.mpr wide)

private theorem byte_ne (listed : mark ∈ marks) (other : c ≠ mark)
    (inside : byte ∈ String.utf8EncodeChar c) : byte ≠ byteOf mark := by
  rintro rfl
  exact other (eq_of_byte listed inside)

theorem char_of_newline (inside : newline ∈ String.utf8EncodeChar c) : c = '\n' :=
  eq_of_byte (by decide) inside

theorem utf8_append (first second : List Char) :
    Text.utf8 (first ++ second) = Text.utf8 first ++ Text.utf8 second := List.flatMap_append

private theorem utf8_mark (listed : mark ∈ marks) (text : List Char) :
    Text.utf8 (mark :: text) = byteOf mark :: Text.utf8 text := by
  rw [utf8_cons, bytes_of_ascii (marks_ascii mark listed).1]
  rfl

private theorem bytes_of_char (c : Char) :
    ∃ byte bytes, String.utf8EncodeChar c = byte :: bytes ∧ ∀ byte ∈ bytes, 0x80 ≤ byte.toNat := by
  by_cases ascii : c.toNat < 0x80
  · exact ⟨_, [], bytes_of_ascii ascii, by simp⟩
  · have nonempty : String.utf8EncodeChar c ≠ [] := by
      rw [← List.length_pos_iff, String.length_utf8EncodeChar]
      exact c.utf8Size_pos
    obtain ⟨byte, bytes, whole⟩ := List.exists_cons_of_ne_nil nonempty
    refine ⟨byte, bytes, whole, fun byte inside => ?_⟩
    exact bytes_of_wide (Nat.le_of_not_lt ascii) (whole ▸ List.mem_cons_of_mem _ inside)

/-- The bytes of a text start with a mark if the text does. -/
private theorem head_of_utf8 (listed : mark ∈ marks) (text : List Char) :
    (Text.utf8 text).head? = some (byteOf mark) ↔ text.head? = some mark := by
  cases text with
  | nil => simp [Text.utf8]
  | cons c text =>
    obtain ⟨byte, bytes, whole, -⟩ := bytes_of_char c
    rw [utf8_cons, whole, List.cons_append, List.head?_cons, List.head?_cons, Option.some.injEq,
      Option.some.injEq]
    constructor
    · rintro rfl
      exact eq_of_byte listed (whole ▸ List.mem_cons_self ..)
    · rintro rfl
      rw [bytes_of_ascii (marks_ascii c listed).1] at whole
      exact (List.cons.inj whole).1.symm

end Characters

section Tokens
variable {state : State} {part own : Part} {c quote : Char} {text : List Char}

/-- One part for every byte of a text. -/
def all (part : Part) (text : List Char) : List Part := (Text.utf8 text).map fun _ => part

private theorem all_cons (part : Part) (c : Char) (text : List Char) :
    all part (c :: text) = (String.utf8EncodeChar c).map (fun _ => part) ++ all part text := by
  rw [all, utf8_cons, List.map_append, all]

private theorem all_append (part : Part) (first second : List Char) :
    all part (first ++ second) = all part first ++ all part second := by
  rw [all, utf8_append, List.map_append, all, all]

private theorem all_mark (listed : c ∈ marks) (part : Part) (text : List Char) :
    all part (c :: text) = part :: all part text := by
  rw [all, utf8_mark listed, List.map_cons, all]

/-- A state keeps on through bytes that mean nothing in it. -/
private theorem parts_through {bytes rest : Bytes}
    (stays : ∀ byte ∈ bytes, ∀ next, state.step byte next = state ∧ state.part byte next = own) :
    parts state (bytes ++ rest) = bytes.map (fun _ => own) ++ parts state rest := by
  induction bytes with
  | nil => rfl
  | cons byte bytes ih =>
    obtain ⟨step, part⟩ := stays byte (List.mem_cons_self ..) (bytes ++ rest).head?
    rw [List.cons_append, parts, step, part,
      ih fun byte inside => stays byte (List.mem_cons_of_mem _ inside)]
    rfl

private theorem parts_line (text : List Char) :
    parts .line (Text.utf8 text) = all .comment (text.takeWhile (· ≠ '\n')) ++
      parts .code (Text.utf8 (text.dropWhile (· ≠ '\n'))) := by
  have listed : '\n' ∈ marks := by decide
  induction text with
  | nil => rfl
  | cons c text ih =>
    by_cases ends : c = '\n'
    · subst ends
      rw [List.takeWhile_cons_of_neg (by simp), List.dropWhile_cons_of_neg (by simp),
        utf8_mark listed]
      rfl
    · rw [List.takeWhile_cons_of_pos (by simpa using ends),
        List.dropWhile_cons_of_pos (by simpa using ends), utf8_cons, all_cons, List.append_assoc,
        ← ih]
      apply parts_through
      intro byte inside next
      have other : byte ≠ newline := byte_ne listed ends inside
      simp [State.step, State.part, other]

private theorem parts_block (text : List Char) :
    parts .block (Text.utf8 text) = all .comment (Lexeme.blockBody text).1 ++
      parts .code (Text.utf8 (Lexeme.blockBody text).2) := by
  have listed : '*' ∈ marks ∧ '/' ∈ marks := by decide
  fun_induction Lexeme.blockBody text with
  | case1 => rfl
  | case2 rest =>
    rw [utf8_mark listed.1, utf8_mark listed.2]
    rfl
  | case3 c rest other inside beyond body ih =>
    simp only [body] at ih
    by_cases isStar : c = '*'
    · subst isStar
      have open_ : (Text.utf8 rest).head? ≠ some slash := by
        intro follows
        obtain ⟨beyond, rfl⟩ := List.head?_eq_some_iff.mp ((head_of_utf8 listed.2 rest).mp follows)
        exact other beyond rfl rfl
      have goesOn : ¬ (byteOf '*' = star ∧ (Text.utf8 rest).head? = some slash) :=
        fun both => open_ both.2
      rw [utf8_mark listed.1, all_mark listed.1, parts]
      simp only [State.step, State.part, if_neg goesOn, ih, List.cons_append]
    · rw [utf8_cons, all_cons, List.append_assoc, ← ih]
      apply parts_through
      intro byte among next
      have notStar : byte ≠ star := byte_ne listed.1 isStar among
      simp [State.step, State.part, notStar]

/-- An escaped character is inside a literal, however many bytes it takes. -/
private theorem parts_escaped (quoted : quote = '"' ∨ quote = '\'') (escaped : Char)
    (rest : List Char) :
    parts (.literal (byteOf quote)) (Text.utf8 ('\\' :: escaped :: rest)) =
      all .inside ['\\', escaped] ++ parts (.literal (byteOf quote)) (Text.utf8 rest) := by
  have listed : quote ∈ marks ∧ '\n' ∈ marks ∧ '\\' ∈ marks := by
    rcases quoted with rfl | rfl <;> decide
  have apart : byteOf '\\' ≠ byteOf quote := by
    rcases quoted with rfl | rfl <;> decide
  obtain ⟨first, bytes, whole, wide⟩ := bytes_of_char escaped
  have taken : ¬ (byteOf '\\' = byteOf quote ∨ byteOf '\\' = newline) :=
    not_or.mpr ⟨apart, by decide⟩
  have through : parts (.literal (byteOf quote)) (bytes ++ Text.utf8 rest) =
      bytes.map (fun _ => .inside) ++ parts (.literal (byteOf quote)) (Text.utf8 rest) := by
    apply parts_through
    intro byte among next
    have large := wide byte among
    have other : ∀ mark ∈ marks, byte ≠ byteOf mark := by
      rintro mark isMark rfl
      exact absurd (marks_ascii mark isMark).2 (Nat.not_lt.mpr large)
    have notEnd : ¬ (byte = byteOf quote ∨ byte = newline) :=
      not_or.mpr ⟨other quote listed.1, other '\n' listed.2.1⟩
    have notBackslash : byte ≠ backslash := other '\\' listed.2.2
    simp [State.step, State.part, notEnd, notBackslash]
  rw [utf8_mark listed.2.2, utf8_cons, whole, all_mark listed.2.2, all_cons, whole, parts]
  simp only [State.step, State.part, if_neg taken, List.cons_append, parts]
  have isBackslash : byteOf '\\' = backslash := rfl
  simp only [if_pos isBackslash, through, List.map_cons, List.cons_append, List.append_assoc]
  rfl

private theorem parts_literal (quoted : quote = '"' ∨ quote = '\'') (text : List Char) :
    parts (.literal (byteOf quote)) (Text.utf8 text) =
      all .inside (Lexeme.literalBody quote text).1 ++
        (all .code (Lexeme.literalBody quote text).2.1.toList ++
          parts .code (Text.utf8 (Lexeme.literalBody quote text).2.2)) := by
  have listed : quote ∈ marks ∧ '\n' ∈ marks ∧ '\\' ∈ marks := by
    rcases quoted with rfl | rfl <;> decide
  have apart : byteOf '\\' ≠ byteOf quote := by
    rcases quoted with rfl | rfl <;> decide
  fun_induction Lexeme.literalBody quote text with
  | case1 => rfl
  | case2 c rest ends =>
    have isMark : c ∈ marks := by
      rcases ends with rfl | rfl
      · exact listed.1
      · exact listed.2.1
    have closes : byteOf c = byteOf quote ∨ byteOf c = newline :=
      ends.imp (congrArg byteOf) (congrArg byteOf)
    simp only [Option.toList_some]
    rw [utf8_mark isMark, all_mark isMark, parts]
    simp only [State.step, State.part, if_pos closes]
    rfl
  | case3 ends =>
    rw [utf8_mark listed.2.2, all_mark listed.2.2, parts]
    have inside : ¬ (byteOf '\\' = byteOf quote ∨ byteOf '\\' = newline) :=
      not_or.mpr ⟨apart, by decide⟩
    simp only [State.part, if_neg inside]
    rfl
  | case4 escaped rest inside close beyond body ends ih =>
    simp only [body] at ih
    have whole : all .inside ('\\' :: escaped :: inside) =
        all .inside ['\\', escaped] ++ all .inside inside := all_append .inside ['\\', escaped] inside
    rw [parts_escaped quoted, ih, whole, List.append_assoc]
  | case5 c rest ends plain inside close beyond body ih =>
    simp only [body] at ih
    rw [utf8_cons, all_cons, List.append_assoc, ← ih]
    apply parts_through
    intro byte among next
    obtain ⟨notQuote, notNewline⟩ := not_or.mp ends
    have notEnd : ¬ (byte = byteOf quote ∨ byte = newline) :=
      not_or.mpr ⟨byte_ne listed.1 notQuote among, byte_ne listed.2.1 notNewline among⟩
    have notBackslash : byte ≠ backslash := byte_ne listed.2.2 plain among
    simp [State.step, State.part, notEnd, notBackslash]

/-- What the bytes of a token are part of. -/
def tokenParts : Lexeme → List Part
  | .code c => all .code [c]
  | .lineComment body => all .comment ('/' :: '/' :: body)
  | .blockComment body => all .comment ('/' :: '*' :: body)
  | .literal quote inside close =>
    all .code [quote] ++ (all .inside inside ++ all .code close.toList)

/-- A slash is code if no comment starts with it. -/
private theorem parts_slash (alone : ∀ mark ∈ ['/', '*'],
    (Text.utf8 text).head? ≠ some (byteOf mark)) :
    parts .code (Text.utf8 ('/' :: text)) =
      all .code ['/'] ++ parts .code (Text.utf8 text) := by
  have listed : '/' ∈ marks := by decide
  have noSlash : (Text.utf8 text).head? ≠ some slash := alone '/' (by simp)
  have noStar : (Text.utf8 text).head? ≠ some star := alone '*' (by simp)
  have notQuote : ¬ IsQuote slash := by decide
  have here : byteOf '/' = slash := rfl
  rw [utf8_mark listed, parts]
  simp only [State.step, State.part, here, true_and, if_neg notQuote, if_neg noSlash, if_neg noStar,
    if_neg (not_or.mpr ⟨noSlash, noStar⟩)]
  rfl

/-- So is every character that is no quote. -/
private theorem parts_plain (plain : ¬ (c = '"' ∨ c = '\'')) (notSlash : c ≠ '/')
    (text : List Char) :
    parts .code (Text.utf8 (c :: text)) = all .code [c] ++ parts .code (Text.utf8 text) := by
  have listed : '"' ∈ marks ∧ '\'' ∈ marks ∧ '/' ∈ marks := by decide
  obtain ⟨notDouble, notSingle⟩ := not_or.mp plain
  rw [utf8_cons, all_cons, List.append_assoc]
  apply parts_through
  intro byte among next
  have notSlash : byte ≠ slash := byte_ne listed.2.2 notSlash among
  have notQuote : ¬ IsQuote byte :=
    not_or.mpr ⟨byte_ne listed.1 notDouble among, byte_ne listed.2.1 notSingle among⟩
  simp [State.step, State.part, notSlash, notQuote]

/-- A quote is code, and opens a literal. -/
private theorem parts_quote (quoted : c = '"' ∨ c = '\'') (text : List Char) :
    parts .code (Text.utf8 (c :: text)) =
      all .code [c] ++ parts (.literal (byteOf c)) (Text.utf8 text) := by
  have isMark : c ∈ marks := by
    rcases quoted with rfl | rfl <;> decide
  have isQuote : IsQuote (byteOf c) := quoted.imp (congrArg byteOf) (congrArg byteOf)
  have notSlash : byteOf c ≠ slash := by
    rcases quoted with rfl | rfl <;> decide
  rw [utf8_mark isMark, all_mark isMark, parts]
  simp only [State.step, State.part, notSlash, false_and, if_false, if_pos isQuote]
  rfl

/-- The byte lexer takes a token as the character lexer does. -/
private theorem parts_next (c : Char) (rest : List Char) :
    parts .code (Text.utf8 (c :: rest)) = tokenParts (Lexeme.next c rest).1 ++
      parts .code (Text.utf8 (Lexeme.next c rest).2) := by
  have listed : '/' ∈ marks ∧ '*' ∈ marks := by decide
  unfold Lexeme.next
  split
  · rename_i body
    rw [utf8_mark listed.1, utf8_mark listed.1, tokenParts, all_mark listed.1, all_mark listed.1]
    exact congrArg (fun tail => Part.comment :: Part.comment :: tail) (parts_line body)
  · rename_i body
    rw [utf8_mark listed.1, utf8_mark listed.2, tokenParts, all_mark listed.1, all_mark listed.2]
    exact congrArg (fun tail => Part.comment :: Part.comment :: tail) (parts_block body)
  · rename_i noLine noBlock
    split
    · rename_i quoted
      rw [parts_quote quoted, parts_literal quoted]
      simp only [tokenParts, List.append_assoc]
    · rename_i plain
      by_cases isSlash : c = '/'
      · subst isSlash
        refine parts_slash fun mark among follows => ?_
        simp only [List.mem_cons, List.not_mem_nil, or_false] at among
        rcases among with rfl | rfl
        · obtain ⟨body, rfl⟩ := List.head?_eq_some_iff.mp ((head_of_utf8 listed.1 rest).mp follows)
          exact noLine body rfl rfl
        · obtain ⟨body, rfl⟩ := List.head?_eq_some_iff.mp ((head_of_utf8 listed.2 rest).mp follows)
          exact noBlock body rfl rfl
      · exact parts_plain plain isSlash rest

end Tokens

section Masks
variable {hideLiterals : Bool}

/-- The faces of characters that are hidden or seen together. -/
private theorem mask_of_chars (hidden : Bool) (offset : Nat) (text : List Char) :
    Text.utf8 ((Cell.ofChars hidden offset text).flatMap Cell.mask) =
      (Text.utf8 text).map fun byte => if hidden ∧ byte ≠ newline then space else byte := by
  induction text generalizing offset with
  | nil => rfl
  | cons c text ih =>
    have own : Text.utf8 (Cell.mask ⟨c, offset, hidden⟩) = (String.utf8EncodeChar c).map
        fun byte => if hidden ∧ byte ≠ newline then space else byte := by
      unfold Cell.mask
      split
      · rename_i covered
        have ends : ∀ byte ∈ String.utf8EncodeChar c, byte ≠ newline := by
          rintro byte among rfl
          exact covered.2 (char_of_newline among)
        have spaces : Text.utf8 (List.replicate c.utf8Size ' ') =
            List.replicate c.utf8Size space := by
          rw [Text.utf8, List.flatMap_replicate]
          exact List.flatten_replicate_singleton
        rw [spaces, ← String.length_utf8EncodeChar, ← List.map_const']
        apply List.map_congr_left
        intro byte among
        rw [if_pos ⟨covered.1, ends byte among⟩]
      · rename_i open_
        rw [show Text.utf8 [c] = String.utf8EncodeChar c from List.append_nil _]
        refine (List.map_id' _).symm.trans (List.map_congr_left fun byte among => ?_)
        rw [if_neg]
        rintro ⟨covered, other⟩
        have isNewline : c = '\n' := by
          by_contra different
          exact open_ ⟨covered, different⟩
        subst isNewline
        exact other (List.mem_singleton.mp among)
    rw [Cell.ofChars, List.flatMap_cons, utf8_append, own, ih, utf8_cons, List.map_append]

/-- Bytes as they are seen whose part is the same for all. -/
private theorem seen_all (part : Part) (text : List Char) :
    List.zipWith (seen hideLiterals) (all part text) (Text.utf8 text) =
      (Text.utf8 text).map (seen hideLiterals part) := by
  rw [all, List.zipWith_map_left, List.zipWith_self]

private theorem length_all (part : Part) (text : List Char) :
    (all part text).length = (Text.utf8 text).length := List.length_map _

private theorem utf8_of_literal (quote : Char) (inside : List Char) (close : Option Char) :
    Text.utf8 (Lexeme.literal quote inside close).text =
      Text.utf8 [quote] ++ (Text.utf8 inside ++ Text.utf8 close.toList) := by
  rw [← utf8_append, ← utf8_append]
  rfl

private theorem length_token_parts (lexeme : Lexeme) :
    (tokenParts lexeme).length = (Text.utf8 lexeme.text).length := by
  cases lexeme with
  | literal quote inside close =>
    rw [tokenParts, utf8_of_literal]
    simp only [List.length_append, length_all]
  | _ => exact length_all _ _

/-- The faces of a token are its bytes as they are seen. -/
private theorem mask_of_token (lexeme : Lexeme) (offset : Nat) :
    Text.utf8 ((lexeme.cells hideLiterals offset).flatMap Cell.mask) =
      List.zipWith (seen hideLiterals) (tokenParts lexeme) (Text.utf8 lexeme.text) := by
  have faces : ∀ (part : Part) (offset : Nat) (text : List Char),
      Text.utf8 ((Cell.ofChars (part.isHidden hideLiterals) offset text).flatMap Cell.mask) =
        List.zipWith (seen hideLiterals) (all part text) (Text.utf8 text) := by
    intro part offset text
    rw [mask_of_chars, seen_all]
    rfl
  cases lexeme with
  | code c => exact faces .code offset [c]
  | lineComment body => exact faces .comment offset _
  | blockComment body => exact faces .comment offset _
  | literal quote inside close =>
    rw [tokenParts, utf8_of_literal, List.zipWith_append (length_all _ _),
      List.zipWith_append (length_all _ _),
      ← faces .code offset, ← faces .inside (offset + quote.utf8Size),
      ← faces .code (offset + quote.utf8Size + Text.byteLength inside)]
    simp only [Lexeme.cells, List.append_assoc, List.flatMap_append, utf8_append]
    rfl

/-- The mask of a text has its bytes as they are seen. -/
theorem utf8_mask (hideLiterals : Bool) (text : List Char) :
    Text.utf8 (mask hideLiterals text) =
      List.zipWith (seen hideLiterals) (parts .code (Text.utf8 text)) (Text.utf8 text) := by
  have from_ : ∀ offset,
      Text.utf8 ((cellsFrom hideLiterals offset (Lexeme.scan text)).flatMap Cell.mask) =
        List.zipWith (seen hideLiterals) (parts .code (Text.utf8 text)) (Text.utf8 text) := by
    fun_induction Lexeme.scan text with
    | case1 => exact fun _ => rfl
    | case2 c rest found ih =>
      intro offset
      have bytes : Text.utf8 (c :: rest) = Text.utf8 found.1.text ++ Text.utf8 found.2 := by
        rw [← utf8_append, Lexeme.next_append]
      rw [cellsFrom, List.flatMap_append, utf8_append, mask_of_token, ih, parts_next, bytes,
        List.zipWith_append (length_token_parts _)]
  exact from_ 0

/-- A byte of the mask is a space if the byte lexer finds the byte of the text in a comment, or inside a
literal when literals are hidden, and it is no newline; otherwise it is the byte of the text. -/
theorem byte_of_mask (hideLiterals : Bool) (text : List Char) (k : Nat) :
    (Text.utf8 (mask hideLiterals text))[k]? = (Text.utf8 text)[k]?.bind fun byte =>
      (parts .code (Text.utf8 text))[k]?.map fun part => seen hideLiterals part byte := by
  rw [utf8_mask, List.getElem?_zipWith]
  cases (parts .code (Text.utf8 text))[k]? <;> cases (Text.utf8 text)[k]? <;> rfl

end Masks

end ContractBuild.MaskedBytes
