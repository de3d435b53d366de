import ContractBuild.Bytes

/-! The UTF-8 form of a text, the strict reading that accepts only such bytes, and the forgiving
reading that shows each broken sequence as one replacement character. -/
namespace ContractBuild.Text

/-- The UTF-8 form of a text. -/
def utf8 (text : List Char) : Bytes := text.flatMap String.utf8EncodeChar

/-- The text whose UTF-8 form the bytes are, if there is one. -/
def ofUtf8? (bytes : Bytes) : Option (List Char) :=
  (String.fromUTF8? ⟨bytes.toArray⟩).map String.toList

/-- The number of bytes in the UTF-8 form of a text. -/
def byteLength : List Char → Nat
  | [] => 0
  | c :: text => c.utf8Size + byteLength text

/-- The text before a byte offset and the text from there on, if the offset lies within the text and
between two characters. -/
def cutAt? : (offset : Nat) → List Char → Option (List Char × List Char)
  | 0, text => some ([], text)
  | _ + 1, [] => none
  | offset + 1, c :: text =>
    if c.utf8Size ≤ offset + 1 then
      (cutAt? (offset + 1 - c.utf8Size) text).map fun (before, after) => (c :: before, after)
    else none

theorem append_of_cutAt? {offset : Nat} {text before after : List Char}
    (cut : cutAt? offset text = some (before, after)) :
    before ++ after = text ∧ byteLength before = offset := by
  fun_induction cutAt? offset text generalizing before after with
  | case1 => simp_all [byteLength]
  | case2 => simp at cut
  | case3 offset c text fits ih =>
    obtain ⟨⟨first, second⟩, found, same⟩ := Option.map_eq_some_iff.mp cut
    simp only [Prod.mk.injEq] at same
    obtain ⟨rfl, rfl⟩ := same
    obtain ⟨whole, length⟩ := ih found
    simp only [byteLength, List.cons_append, whole, true_and] at *
    omega
  | case4 => simp at cut

theorem cutAt?_append (before after : List Char) :
    cutAt? (byteLength before) (before ++ after) = some (before, after) := by
  induction before with
  | nil => cases after <;> simp [byteLength, cutAt?]
  | cons c before ih =>
    have wide := c.utf8Size_pos
    obtain ⟨width, same⟩ : ∃ width, c.utf8Size = width + 1 := ⟨c.utf8Size - 1, by omega⟩
    have left : width + 1 + byteLength before = (width + byteLength before) + 1 := by omega
    have right : width + byteLength before + 1 - (width + 1) = byteLength before := by omega
    simp only [byteLength, same, left, List.cons_append, cutAt?, right, ih]
    simp

/-- The character that stands for a broken sequence. -/
def replacement : Char := '\uFFFD'

/-- What a first byte announces: the number of bytes that follow, the range that the next of them
must lie in, and the bits that the first byte gives. -/
def announced (first : Nat) : Option (Nat × Nat × Nat × Nat) :=
  if first < 0x80 then some (0, 0, 0, first)
  else if first < 0xC2 then none
  else if first < 0xE0 then some (1, 0x80, 0xBF, first - 0xC0)
  else if first = 0xE0 then some (2, 0xA0, 0xBF, 0)
  else if first = 0xED then some (2, 0x80, 0x9F, 0xD)
  else if first < 0xF0 then some (2, 0x80, 0xBF, first - 0xE0)
  else if first = 0xF0 then some (3, 0x90, 0xBF, 0)
  else if first < 0xF4 then some (3, 0x80, 0xBF, first - 0xF0)
  else if first = 0xF4 then some (3, 0x80, 0x8F, 4)
  else none

/-- Reads the bytes that a first byte announced. A byte out of its range ends a broken sequence and
is read again as a first byte. -/
def readTail : (count low high value : Nat) → Bytes → Char × Bytes
  | 0, _, _, value, bytes => (Char.ofNat value, bytes)
  | _ + 1, _, _, _, [] => (replacement, [])
  | count + 1, low, high, value, byte :: bytes =>
    if low ≤ byte.toNat ∧ byte.toNat ≤ high then
      readTail count 0x80 0xBF (value * 64 + (byte.toNat - 0x80)) bytes
    else (replacement, byte :: bytes)

theorem readTail_length (count low high value : Nat) (bytes : Bytes) :
    (readTail count low high value bytes).2.length ≤ bytes.length := by
  induction count generalizing low high value bytes with
  | zero => simp [readTail]
  | succ count ih =>
    cases bytes with
    | nil => simp [readTail]
    | cons byte bytes =>
      simp only [readTail]
      split
      · exact Nat.le_succ_of_le (ih ..)
      · exact Nat.le_refl _

/-- The text that bytes show, with one replacement character for each longest piece that could
have started a character and did not become one. -/
def ofUtf8Lossy : Bytes → List Char
  | [] => []
  | first :: bytes =>
    match announced first.toNat with
    | none => replacement :: ofUtf8Lossy bytes
    | some (count, low, high, value) =>
      let next := readTail count low high value bytes
      next.1 :: ofUtf8Lossy next.2
termination_by bytes => bytes.length
decreasing_by
  · simp
  · have := readTail_length count low high value bytes
    simp only [List.length_cons]
    omega

end ContractBuild.Text
