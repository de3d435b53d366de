import ContractBuild.Bytes

/-! Bytes written as pairs of hexadecimal digits. -/
namespace ContractBuild.Text

/-- The lowercase hexadecimal digit of a number below sixteen. -/
def hexDigit (n : Nat) : Char := if n < 10 then Char.ofNat (48 + n) else Char.ofNat (87 + n)

/-- The value of a hexadecimal digit of either case. -/
def hexValue? (c : Char) : Option Nat :=
  if '0' ≤ c ∧ c ≤ '9' then some (c.toNat - 48)
  else if 'a' ≤ c ∧ c ≤ 'f' then some (c.toNat - 87)
  else if 'A' ≤ c ∧ c ≤ 'F' then some (c.toNat - 55)
  else none

/-- Two lowercase digits for each byte. -/
def hex (bytes : Bytes) : List Char :=
  bytes.flatMap fun byte => [hexDigit (byte.toNat / 16), hexDigit (byte.toNat % 16)]

/-- The bytes that pairs of hexadecimal digits of either case stand for. -/
def ofHex? : List Char → Option Bytes
  | [] => some []
  | [_] => none
  | high :: low :: text =>
    match hexValue? high, hexValue? low, ofHex? text with
    | some h, some l, some bytes => some (UInt8.ofNat (16 * h + l) :: bytes)
    | _, _, _ => none

theorem toNat_hexDigit {n : Nat} (small : n < 16) :
    (hexDigit n).toNat = if n < 10 then 48 + n else 87 + n := by
  have each : ∀ n < 16, (hexDigit n).toNat = if n < 10 then 48 + n else 87 + n := by decide
  exact each n small

theorem toNat_toLower (c : Char) :
    c.toLower.toNat = if 65 ≤ c.toNat ∧ c.toNat ≤ 90 then c.toNat + 32 else c.toNat := by
  have range : (c.val ≥ 'A'.val ∧ c.val ≤ 'Z'.val) ↔ 65 ≤ c.toNat ∧ c.toNat ≤ 90 := by
    simp only [ge_iff_le, UInt32.le_iff_toNat_le, Char.toNat_val]
    rfl
  unfold Char.toLower
  by_cases upper : 65 ≤ c.toNat ∧ c.toNat ≤ 90
  · rw [dif_pos (range.mpr upper), if_pos upper]
    show (c.val + ('a'.val - 'A'.val)).toNat = _
    rw [UInt32.toNat_add, Char.toNat_val, show ('a'.val - 'A'.val).toNat = 32 by decide]
    omega
  · rw [dif_neg (fun inside => upper (range.mp inside)), if_neg upper]

theorem hexValue?_eq (c : Char) :
    hexValue? c = if 48 ≤ c.toNat ∧ c.toNat ≤ 57 then some (c.toNat - 48)
      else if 97 ≤ c.toNat ∧ c.toNat ≤ 102 then some (c.toNat - 87)
      else if 65 ≤ c.toNat ∧ c.toNat ≤ 70 then some (c.toNat - 55)
      else none := by
  simp only [hexValue?, Char.le_def, UInt32.le_iff_toNat_le, Char.toNat_val]
  rfl

/-- A character has a value exactly if its lowercase form is the digit of that value. -/
theorem hexValue?_eq_some_iff {c : Char} {value : Nat} :
    hexValue? c = some value ↔ value < 16 ∧ c.toLower = hexDigit value := by
  rw [hexValue?_eq]
  constructor
  · intro read
    have small : value < 16 := by grind
    refine ⟨small, ?_⟩
    rw [← Char.toNat_inj, toNat_toLower, toNat_hexDigit small]
    grind
  · rintro ⟨small, same⟩
    rw [← Char.toNat_inj, toNat_toLower, toNat_hexDigit small] at same
    grind

end ContractBuild.Text
