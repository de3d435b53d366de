import ContractBuild.Proofs.MaskedBytes
import ContractBuild.Proofs.SourcePieces
import ContractBuild.Source.Declaration

/-! The declared names of a text are found in what is seen of it. How long a run of blanks is makes no
difference to a search for names, so texts that differ only in comments and inside literals, where a
byte is hidden or a newline, declare the same names. -/
namespace ContractBuild.DeclaredNames
open ByteForms MaskedBytes Source
open SourcePieces (boundary_after_blank goes_on_solid)

/-- Cells that look alike but for the lengths of their runs of blanks. -/
inductive Alike : List Cell → List Cell → Prop
  | nil : Alike [] []
  | cons {cell cell' : Cell} {cells cells' : List Cell} (same : cell'.face = cell.face)
      (rest : Alike cells cells') : Alike (cell :: cells) (cell' :: cells')
  | blanks {cell cell' : Cell} {more more' cells cells' : List Cell}
      (blank : ∀ c ∈ cell :: more, Text.isBlank c.face = true)
      (blank' : ∀ c ∈ cell' :: more', Text.isBlank c.face = true)
      (rest : Alike cells cells') :
      Alike (cell :: (more ++ cells)) (cell' :: (more' ++ cells'))

theorem alike_blank {cell cell' : Cell} {cells cells' : List Cell}
    (blank : Text.isBlank cell.face = true) (blank' : Text.isBlank cell'.face = true)
    (rest : Alike cells cells') : Alike (cell :: cells) (cell' :: cells') :=
  @Alike.blanks cell cell' [] [] cells cells' (by simpa using blank) (by simpa using blank') rest

section Parts
variable {cells cells' : List Cell}

theorem rel_bind {α β : Type} {r : α → α → Prop} {s : β → β → Prop} {found found' : Option α}
    (parse : α → Option β) (one : Option.Rel r found found')
    (other : ∀ a a', r a a' → Option.Rel s (parse a) (parse a')) :
    Option.Rel s (found.bind parse) (found'.bind parse) := by
  cases one with
  | none => exact .none
  | some onward => exact other _ _ onward

private theorem drop_blanks {run : List Cell} (blank : ∀ c ∈ run, Text.isBlank c.face = true)
    (cells : List Cell) : skipBlanks (run ++ cells) = skipBlanks cells :=
  List.dropWhile_append_of_pos blank

theorem skip_alike (alike : Alike cells cells') : Alike (skipBlanks cells) (skipBlanks cells') := by
  induction alike with
  | nil => exact .nil
  | @cons cell cell' cells cells' same rest ih =>
    cases blank : Text.isBlank cell.face with
    | true =>
      simpa only [skipBlanks, List.dropWhile_cons, same, blank, if_true] using ih
    | false =>
      simpa only [skipBlanks, List.dropWhile_cons, same, blank, Bool.false_eq_true, if_false]
        using Alike.cons same rest
  | blanks blank blank' rest ih =>
    rw [← List.cons_append, ← List.cons_append, drop_blanks blank, drop_blanks blank']
    exact ih

theorem blanks_alike (alike : Alike cells cells') :
    Option.Rel Alike (afterBlanks? cells) (afterBlanks? cells') := by
  cases alike with
  | nil => exact .none
  | cons same rest =>
    simp only [afterBlanks?, same]
    split
    · exact .some (skip_alike rest)
    · exact .none
  | blanks blank blank' rest =>
    simp only [afterBlanks?, blank _ (List.mem_cons_self ..), blank' _ (List.mem_cons_self ..),
      if_true]
    rw [drop_blanks fun c inside => blank c (List.mem_cons_of_mem _ inside),
      drop_blanks fun c inside => blank' c (List.mem_cons_of_mem _ inside)]
    exact .some (skip_alike rest)

/-- A word that has no blank in it. -/
def Solid (word : List Char) : Prop := ∀ c ∈ word, Text.isBlank c = false

private theorem missed_at_blank {word : List Char} {cell : Cell} (solid : Solid word)
    (nonempty : word ≠ []) (blank : Text.isBlank cell.face = true) (cells : List Cell) :
    afterWord? word (cell :: cells) = none := by
  obtain ⟨c, word, rfl⟩ := List.exists_cons_of_ne_nil nonempty
  rw [afterWord?, if_neg]
  rintro rfl
  have other := solid _ (List.mem_cons_self ..)
  rw [blank] at other
  cases other

theorem word_alike {word : List Char} (solid : Solid word) (alike : Alike cells cells') :
    Option.Rel Alike (afterWord? word cells) (afterWord? word cells') := by
  induction word generalizing cells cells' with
  | nil => exact .some alike
  | cons c word ih =>
    have tail : Solid word := fun c inside => solid c (List.mem_cons_of_mem _ inside)
    cases alike with
    | nil => exact .none
    | cons same rest =>
      simp only [afterWord?, same]
      split
      · exact ih tail rest
      · exact .none
    | blanks blank blank' rest =>
      rw [missed_at_blank solid (by simp) (blank _ (List.mem_cons_self ..)),
        missed_at_blank solid (by simp) (blank' _ (List.mem_cons_self ..))]
      exact .none

theorem words_alike {words : List (List Char)} (solid : ∀ word ∈ words, Solid word)
    (alike : Alike cells cells') :
    Option.Rel Alike (words.findSome? fun word => afterWord? word cells)
      (words.findSome? fun word => afterWord? word cells') := by
  induction words with
  | nil => exact .none
  | cons word words ih =>
    have first := word_alike (solid word (List.mem_cons_self ..)) alike
    have others := ih fun word inside => solid word (List.mem_cons_of_mem _ inside)
    simp only [List.findSome?_cons]
    generalize afterWord? word cells = found at first ⊢
    generalize afterWord? word cells' = found' at first ⊢
    cases first with
    | none => exact others
    | some onward => exact .some onward

end Parts

section Names
variable {cells cells' : List Cell} {c : Char}

private theorem stops_at_blank (blank : Text.isBlank c = true) :
    Declaration.continues c = false := by
  cases goesOn : Declaration.continues c with
  | false => rfl
  | true => exact absurd blank (by simp [goes_on_solid goesOn])

/-- A name is spelled in the same way in both, and what follows it looks alike. -/
theorem name_alike (alike : Alike cells cells') :
    ((cells.takeWhile fun cell => Declaration.continues cell.face).map Cell.face =
      (cells'.takeWhile fun cell => Declaration.continues cell.face).map Cell.face) ∧
    Alike (cells.dropWhile fun cell => Declaration.continues cell.face)
      (cells'.dropWhile fun cell => Declaration.continues cell.face) := by
  induction alike with
  | nil => exact ⟨rfl, .nil⟩
  | @cons cell cell' cells cells' same rest ih =>
    cases goesOn : Declaration.continues cell.face with
    | true =>
      simp only [List.takeWhile_cons, List.dropWhile_cons, same, goesOn, if_true, List.map_cons]
      exact ⟨by rw [ih.1], ih.2⟩
    | false =>
      simp only [List.takeWhile_cons, List.dropWhile_cons, same, goesOn, Bool.false_eq_true,
        if_false]
      exact ⟨trivial, .cons same rest⟩
  | blanks blank blank' rest =>
    have stops := stops_at_blank (blank _ (List.mem_cons_self ..))
    have stops' := stops_at_blank (blank' _ (List.mem_cons_self ..))
    simp only [List.takeWhile_cons, List.dropWhile_cons, stops, stops', Bool.false_eq_true,
      if_false]
    exact ⟨trivial, .blanks blank blank' rest⟩

/-- A declaration is found in both or in neither, with the same name. -/
def SameName : Option (String × List Cell) → Option (String × List Cell) → Prop :=
  Option.Rel fun found found' => found'.1 = found.1 ∧ Alike found.2 found'.2

private theorem keywords_solid : ∀ word ∈ "abstract".toList :: Declaration.keywords,
    word ≠ [] ∧ Solid word := by
  have spelled : ("abstract".toList :: Declaration.keywords).all (fun word =>
      ! word.isEmpty && word.all fun c => ! Text.isBlank c) = true := by decide
  simpa [Solid] using spelled

theorem named_alike (alike : Alike cells cells') :
    SameName (Declaration.named? cells) (Declaration.named? cells') := by
  have words := rel_bind afterBlanks? (words_alike
    (fun word listed => (keywords_solid word (List.mem_cons_of_mem _ listed)).2) alike)
    fun _ _ => blanks_alike
  unfold Declaration.named?
  generalize (Declaration.keywords.findSome? fun word => afterWord? word cells).bind afterBlanks? =
    found at words ⊢
  generalize (Declaration.keywords.findSome? fun word => afterWord? word cells').bind
    afterBlanks? = found' at words ⊢
  cases words with
  | none => exact .none
  | some alike =>
    cases alike with
    | nil => exact .none
    | cons same rest =>
      simp only [same]
      split
      · obtain ⟨spelled, onward⟩ := name_alike rest
        exact .some ⟨by rw [List.map_cons, List.map_cons, spelled, same], onward⟩
      · exact .none
    | blanks blank blank' rest =>
      have start : ∀ c, Text.isBlank c = true → startsName c = false := by
        intro c isBlank
        have stops := stops_at_blank isBlank
        simp only [Declaration.continues, Bool.or_eq_false_iff] at stops
        exact stops.1
      simp only [start _ (blank _ (List.mem_cons_self ..)),
        start _ (blank' _ (List.mem_cons_self ..)), Bool.false_eq_true, if_false]
      exact .none

theorem match_alike (alike : Alike cells cells') :
    SameName (Declaration.match? cells) (Declaration.match? cells') := by
  have abstract_ := rel_bind afterBlanks?
    (word_alike (keywords_solid _ (List.mem_cons_self ..)).2 alike)
    fun _ _ => blanks_alike
  have plain := named_alike alike
  unfold Declaration.match? Declaration.afterAbstract?
  generalize (afterWord? "abstract".toList cells).bind afterBlanks? = found at abstract_ ⊢
  generalize (afterWord? "abstract".toList cells').bind afterBlanks? = found' at abstract_ ⊢
  cases abstract_ with
  | none => exact plain
  | some alike => exact named_alike alike

end Names

section Scans
variable {before before' : Option Char} {cell : Cell} {cells cells' beyond : List Cell}
  {name : String}

theorem scan_found (boundary : isBoundary before = true)
    (found : Declaration.match? (cell :: cells) = some (name, beyond)) :
    Declaration.scanCells before (cell :: cells) =
      name :: Declaration.scanCells name.toList.getLast? beyond := by
  rw [Declaration.scanCells]
  split
  · rename_i found'
    rw [if_pos boundary, found] at found'
    obtain ⟨rfl, rfl⟩ := Prod.mk.inj (Option.some.inj found')
    rfl
  · rename_i missed
    rw [if_pos boundary, found] at missed
    cases missed

theorem scan_passed
    (missed : isBoundary before = true → Declaration.match? (cell :: cells) = none) :
    Declaration.scanCells before (cell :: cells) =
      Declaration.scanCells (some cell.face) cells := by
  rw [Declaration.scanCells]
  split
  · rename_i found
    split at found
    · rename_i boundary
      cases (missed boundary).symm.trans found
    · cases found
  · rfl

/-- Of the cell before only this matters: whether a word may start after it. -/
theorem scan_boundary (same : isBoundary before' = isBoundary before) (cells : List Cell) :
    Declaration.scanCells before' cells = Declaration.scanCells before cells := by
  cases cells with
  | nil => rw [Declaration.scanCells, Declaration.scanCells]
  | cons cell cells => rw [Declaration.scanCells, Declaration.scanCells, same]

/-- Blanks declare nothing. -/
theorem scan_blanks {run : List Cell} (nonempty : run ≠ [])
    (blank : ∀ c ∈ run, Text.isBlank c.face = true) (before : Option Char) (cells : List Cell) :
    Declaration.scanCells before (run ++ cells) = Declaration.scanCells none cells := by
  induction run generalizing before with
  | nil => exact absurd rfl nonempty
  | cons cell run ih =>
    have own := blank cell (List.mem_cons_self ..)
    have nothing : Declaration.match? (cell :: (run ++ cells)) = none := by
      have words : ∀ word ∈ "abstract".toList :: Declaration.keywords,
          afterWord? word (cell :: (run ++ cells)) = none := by
        intro word listed
        obtain ⟨nonempty, solid⟩ := keywords_solid word listed
        exact missed_at_blank solid nonempty own _
      have none_ : (Declaration.keywords.findSome? fun word =>
          afterWord? word (cell :: (run ++ cells))) = none := by
        rw [List.findSome?_eq_none_iff]
        exact fun word listed => words word (List.mem_cons_of_mem _ listed)
      have first := words _ (List.mem_cons_self ..)
      simp only [Declaration.match?, Declaration.afterAbstract?, first, Declaration.named?, none_,
        Option.bind_none]
    rw [List.cons_append, scan_passed fun _ => nothing]
    cases run with
    | nil => exact scan_boundary (boundary_after_blank own) cells
    | cons next run => exact ih (by simp) (fun c inside => blank c (List.mem_cons_of_mem _ inside)) _

/-- Cells that look alike declare the same names. -/
theorem scan_alike {before before' : Option Char} {cells cells' : List Cell}
    (alike : Alike cells cells') (same : isBoundary before' = isBoundary before) :
    Declaration.scanCells before' cells' = Declaration.scanCells before cells := by
  cases alike with
  | nil => rw [Declaration.scanCells, Declaration.scanCells]
  | @blanks cell cell' more more' cells cells' blank blank' rest =>
    rw [← List.cons_append, ← List.cons_append, scan_blanks (by simp) blank,
      scan_blanks (by simp) blank']
    exact scan_alike rest rfl
  | @cons cell cell' cells cells' face rest =>
    have found := match_alike (.cons face rest)
    cases boundary : isBoundary before with
    | false =>
      have apart : isBoundary before ≠ true := by simp [boundary]
      rw [scan_passed fun here => absurd here apart,
        scan_passed fun here => absurd (same.symm.trans here) apart, face]
      exact scan_alike rest rfl
    | true =>
      generalize first : Declaration.match? (cell :: cells) = one at found
      generalize second : Declaration.match? (cell' :: cells') = other at found
      cases found with
      | none =>
        rw [scan_passed fun _ => first, scan_passed fun _ => second, face]
        exact scan_alike rest rfl
      | @some declared declared' together =>
        obtain ⟨name, beyond⟩ := declared
        obtain ⟨name', beyond'⟩ := declared'
        obtain ⟨rfl, onward⟩ : name' = name ∧ Alike beyond beyond' := together
        have shorter : beyond.length < cells.length + 1 := Declaration.match?_length first
        rw [scan_found boundary first, scan_found (same.trans boundary) second,
          scan_alike onward rfl]
termination_by cells.length

end Scans

section Hidden
variable {text other : List Char}

/-- The cells of a text of which nothing is hidden. -/
def plain (text : List Char) : List Cell := text.map fun c => ⟨c, 0, false⟩

/-- Cells look like their mask, which has as many spaces for a hidden character as that has bytes. -/
theorem alike_mask (cells : List Cell) : Alike cells (plain (cells.flatMap Cell.mask)) := by
  induction cells with
  | nil => exact .nil
  | cons cell cells ih =>
    rw [List.flatMap_cons, plain, List.map_append]
    unfold Cell.mask
    split
    · rename_i covered
      obtain ⟨n, width⟩ := Nat.exists_eq_succ_of_ne_zero (Nat.ne_of_gt cell.char.utf8Size_pos)
      have blank : Text.isBlank ' ' = true := by decide
      have face : cell.face = ' ' := if_pos covered
      rw [width, List.replicate_succ, List.map_cons, List.map_replicate]
      refine @Alike.blanks cell _ [] _ cells _ ?_ ?_ ih
      · simpa [face] using blank
      · intro c inside
        rcases List.mem_cons.mp inside with rfl | inside
        · exact blank
        · rw [(List.mem_replicate.mp inside).2]
          exact blank
    · rename_i open_
      refine .cons ?_ ih
      simp [Cell.face, if_neg open_]

/-- Names are found in the mask of a text. -/
theorem scan_of_mask (text : List Char) :
    Declaration.scan text = Declaration.scanCells none (plain (mask true text)) :=
  (scan_alike (alike_mask (cells true text)) rfl).symm

/-- A character with every newline taken for a space. -/
def level (c : Char) : Char := if c = '\n' then ' ' else c

def levelByte (byte : UInt8) : UInt8 := if byte = newline then space else byte

/-- Texts that are the same but for newlines and spaces look alike. -/
theorem alike_of_level (same : other.map level = text.map level) :
    Alike (plain text) (plain other) := by
  induction text generalizing other with
  | nil =>
    obtain rfl := List.map_eq_nil_iff.mp same
    exact .nil
  | cons c text ih =>
    cases other with
    | nil => cases same
    | cons d other =>
      obtain ⟨first, rest⟩ := List.cons.inj same
      by_cases equal : d = c
      · subst equal
        exact .cons rfl (ih rest)
      · have gap : ∀ b, b = c ∨ b = d → Text.isBlank b = true := by
          unfold level at first
          split at first <;> split at first <;> rintro b (rfl | rfl) <;> subst_vars <;>
            first | decide | exact absurd rfl equal
        exact alike_blank (gap c (Or.inl rfl)) (gap d (Or.inr rfl)) (ih rest)

theorem utf8_level (text : List Char) :
    Text.utf8 (text.map level) = (Text.utf8 text).map levelByte := by
  induction text with
  | nil => rfl
  | cons c text ih =>
    have own : Text.utf8 [level c] = (Text.utf8 [c]).map levelByte := by
      by_cases isNewline : c = '\n'
      · subst isNewline
        decide
      · have stays : ∀ byte ∈ Text.utf8 [c], levelByte byte = byte := by
          intro byte inside
          refine if_neg ?_
          rintro rfl
          exact isNewline (char_of_newline (by simpa [Text.utf8] using inside))
        rw [level, if_neg isNewline]
        exact (List.map_id' _).symm.trans (List.map_congr_left fun byte inside =>
          (stays byte inside).symm)
    rw [List.map_cons, ← List.singleton_append, utf8_append, own, ih, ← List.map_append,
      ← utf8_append, List.singleton_append]

/-- Hidden bytes are seen as spaces or newlines. -/
theorem level_seen {part : Part} (hidden : part ≠ .code) (byte : UInt8) :
    levelByte (seen true part byte) = space := by
  have covered : part.isHidden true = true := by
    cases part with
    | code => exact absurd rfl hidden
    | comment => rfl
    | inside => rfl
  by_cases isNewline : byte = newline
  · rw [seen, if_neg fun both => both.2 isNewline, levelByte, if_pos isNewline]
  · rw [seen, if_pos ⟨covered, isNewline⟩]
    rfl

/-- Texts of which everything is in the same place, and different only where it is hidden, have the same
mask but for newlines and spaces. -/
theorem level_mask (placed : parts .code (Text.utf8 other) = parts .code (Text.utf8 text))
    (same : ∀ k : Nat, (parts .code (Text.utf8 text))[k]? = some .code →
      (Text.utf8 other)[k]? = (Text.utf8 text)[k]?) :
    (mask true other).map level = (mask true text).map level := by
  apply utf8_injective
  rw [utf8_level, utf8_level]
  apply List.ext_getElem?
  intro k
  have lengths : (Text.utf8 other).length = (Text.utf8 text).length := by
    rw [← length_parts .code, placed, length_parts]
  rw [List.getElem?_map, List.getElem?_map, byte_of_mask, byte_of_mask, placed]
  cases own : (parts .code (Text.utf8 text))[k]? with
  | none => cases (Text.utf8 other)[k]? <;> cases (Text.utf8 text)[k]? <;> rfl
  | some part =>
    have inside : k < (Text.utf8 text).length := by
      rw [← length_parts .code]
      exact (List.getElem?_eq_some_iff.mp own).1
    by_cases isCode : part = .code
    · subst isCode
      rw [same k own]
    · rw [List.getElem?_eq_getElem inside, List.getElem?_eq_getElem (lengths.symm ▸ inside)]
      simp only [Option.bind_some, Option.map_some, level_seen isCode]

end Hidden

/-- The mask of a text is UTF-8 of the same length. A byte of it is a space where the byte lexer finds a
comment, or the inside of a literal if literals are hidden, except for newlines; every other byte is the
text's. So the names that a text declares depend on nothing else: texts in which the byte lexer finds
the same parts, and which differ in comments and inside literals only, declare the same names. -/
theorem masked_as_lexed (text : List Char) :
    (∀ hideLiterals,
      (Text.utf8 (mask hideLiterals text)).length = (Text.utf8 text).length ∧
      Text.ofUtf8? (List.zipWith (seen hideLiterals) (parts .code (Text.utf8 text))
        (Text.utf8 text)) = some (mask hideLiterals text) ∧
      ∀ (k : Nat) part byte, (parts .code (Text.utf8 text))[k]? = some part →
        (Text.utf8 text)[k]? = some byte →
        (Text.utf8 (mask hideLiterals text))[k]? = some (seen hideLiterals part byte)) ∧
    ∀ other, parts .code (Text.utf8 other) = parts .code (Text.utf8 text) →
      (∀ k : Nat, (parts .code (Text.utf8 text))[k]? = some .code →
        (Text.utf8 other)[k]? = (Text.utf8 text)[k]?) →
      Declaration.scan other = Declaration.scan text := by
  refine ⟨fun hideLiterals => ⟨?_, ?_, ?_⟩, ?_⟩
  · rw [utf8_mask, List.length_zipWith, length_parts, Nat.min_self]
  · rw [← utf8_mask, of_utf8_utf8]
  · intro k part byte placed there
    rw [byte_of_mask, placed, there]
    rfl
  · intro other placed same
    rw [scan_of_mask, scan_of_mask]
    exact scan_alike (alike_of_level (level_mask placed same)) rfl

/-- A character of two bytes in a comment gives way to a newline and a space. -/
theorem rewritten_comment_declares_alike :
    Declaration.scan "/*é*/contract A".toList = Declaration.scan "/*\n */contract A".toList := by
  have placed : parts .code (Text.utf8 "/*é*/contract A".toList) =
      parts .code (Text.utf8 "/*\n */contract A".toList) := by
    decide
  refine (masked_as_lexed "/*\n */contract A".toList).2 _ placed fun k isCode => ?_
  have inside : k < 16 := (List.getElem?_eq_some_iff.mp isCode).1
  have each : ∀ k < 16, (parts .code (Text.utf8 "/*\n */contract A".toList))[k]? = some .code →
      (Text.utf8 "/*é*/contract A".toList)[k]? = (Text.utf8 "/*\n */contract A".toList)[k]? := by
    decide
  exact each k inside isCode

end ContractBuild.DeclaredNames
