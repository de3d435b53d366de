import ContractBuild.Language
import ContractBuild.Text.Utf8

/-! What every written form rests on: a number in a fixed count of bytes, a text in UTF-8 and bytes
in hexadecimal digits can be read back, so what is different is written differently. -/
namespace ContractBuild.ByteForms

/-- Numbers that have a form of a width are told apart by it. -/
theorem little_endian_injective {width n m : Nat} (first : n < Bytes.capacity width)
    (second : m < Bytes.capacity width)
    (same : Bytes.littleEndian width n = Bytes.littleEndian width m) : n = m := by
  rw [← Bytes.toNat_littleEndian width n first, same, Bytes.toNat_littleEndian width m second]

private theorem to_byte_array_eq (bytes : Bytes) : bytes.toByteArray = ⟨bytes.toArray⟩ := by
  apply ByteArray.ext
  simp

/-- The strict reading accepts the UTF-8 form of every text and gives the text back. -/
theorem of_utf8_utf8 (text : List Char) : Text.ofUtf8? (Text.utf8 text) = some text := by
  have bytes : (⟨(Text.utf8 text).toArray⟩ : ByteArray) = text.utf8Encode := by
    rw [← to_byte_array_eq]
    rfl
  have valid : ByteArray.IsValidUTF8 text.utf8Encode := ByteArray.isValidUTF8_utf8Encode
  have read : String.fromUTF8 text.utf8Encode valid = String.ofList text := by
    apply String.toByteArray_inj.mp
    rw [String.toByteArray_ofList]
    rfl
  simp only [Text.ofUtf8?, bytes, String.fromUTF8?, valid, ↓reduceDIte, read, Option.map_some,
    String.toList_ofList]

/-- Texts are told apart by their UTF-8 forms. -/
theorem utf8_injective {first second : List Char} (same : Text.utf8 first = Text.utf8 second) :
    first = second := by
  have read := of_utf8_utf8 first
  rw [same, of_utf8_utf8 second] at read
  exact (Option.some.inj read).symm

theorem utf8_cons (c : Char) (text : List Char) :
    Text.utf8 (c :: text) = String.utf8EncodeChar c ++ Text.utf8 text := rfl

/-- Digits have the order of their values. -/
theorem digits_alike : ∀ n < 16, ∀ m < 16,
    (Text.hexDigit n < Text.hexDigit m ↔ n < m) ∧ (Text.hexDigit n = Text.hexDigit m ↔ n = m) := by
  decide

theorem hex_cons (byte : UInt8) (bytes : Bytes) :
    Text.hex (byte :: bytes) = Text.hexDigit (byte.toNat / 16) ::
      Text.hexDigit (byte.toNat % 16) :: Text.hex bytes := rfl

/-- Bytes are told apart by their digits. -/
theorem hex_injective {first second : Bytes} (same : Text.hex first = Text.hex second) :
    first = second := by
  induction first generalizing second with
  | nil =>
    cases second with
    | nil => rfl
    | cons byte second => cases same
  | cons byte first ih =>
    cases second with
    | nil => cases same
    | cons byte' second =>
      simp only [hex_cons, List.cons.injEq] at same
      obtain ⟨high, low, rest⟩ := same
      have below := byte.toNat_lt
      have below' := byte'.toNat_lt
      have high := (digits_alike _ (by omega) _ (by omega)).2.mp high
      have low := (digits_alike _ (by omega) _ (by omega)).2.mp low
      have same : byte = byte' := UInt8.toNat_inj.mp (by omega)
      rw [same, ih rest]

/-- Each byte has two digits. -/
theorem length_hex (bytes : Bytes) : (Text.hex bytes).length = 2 * bytes.length := by
  induction bytes with
  | nil => rfl
  | cons byte bytes ih =>
    simp only [hex_cons, List.length_cons, ih]
    omega

/-- Digests are told apart by their digits. -/
theorem to_hex_injective {first second : Digest} (same : first.toHex = second.toHex) :
    first = second := by
  have bytes := hex_injective (String.ofList_inj.mp same)
  cases first
  cases second
  subst bytes
  rfl

/-- Digests are told apart by the names that contents have after them. -/
theorem file_name_injective {first second : Digest} {language : Language}
    (same : first.fileName language = second.fileName language) : first = second := by
  have texts := congrArg String.toList same
  simp only [Digest.fileName, String.toList_append, List.append_assoc] at texts
  exact to_hex_injective (String.toList_inj.mp (List.append_cancel_right texts))

end ContractBuild.ByteForms
