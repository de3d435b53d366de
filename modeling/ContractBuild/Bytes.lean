/-! Bytes as a list, and numbers written in a fixed count of bytes with the lowest byte first. -/
namespace ContractBuild

/-- The content of a file, a field or a message. -/
abbrev Bytes := List UInt8

namespace Bytes

/-- How many numbers have a form of `width` bytes. -/
def capacity : (width : Nat) → Nat
  | 0 => 1
  | width + 1 => 256 * capacity width

/-- A number in `width` bytes, lowest byte first. -/
def littleEndian : (width : Nat) → Nat → Bytes
  | 0, _ => []
  | width + 1, n => UInt8.ofNat (n % 256) :: littleEndian width (n / 256)

/-- The number whose base-256 digits are the bytes, lowest first. -/
def toNat : Bytes → Nat
  | [] => 0
  | byte :: bytes => byte.toNat + 256 * toNat bytes

/-- The first `count` bytes and the rest, if there are so many. -/
def take? (count : Nat) (bytes : Bytes) : Option (Bytes × Bytes) :=
  if count ≤ bytes.length then some (bytes.take count, bytes.drop count) else none

@[simp] theorem length_littleEndian (width n : Nat) : (littleEndian width n).length = width := by
  induction width generalizing n with
  | zero => rfl
  | succ width ih => simp [littleEndian, ih]

theorem toNat_littleEndian (width n : Nat) (bound : n < capacity width) :
    toNat (littleEndian width n) = n := by
  induction width generalizing n with
  | zero => simp only [capacity] at bound; simp only [littleEndian, toNat]; omega
  | succ width ih =>
    have quotient : n / 256 < capacity width := by
      simp only [capacity] at bound
      omega
    simp only [littleEndian, toNat, ih _ quotient, UInt8.toNat_ofNat']
    omega

theorem take?_append (bytes rest : Bytes) :
    take? bytes.length (bytes ++ rest) = some (bytes, rest) := by
  simp [take?]

theorem length_of_take? {count : Nat} {bytes field rest : Bytes}
    (taken : take? count bytes = some (field, rest)) :
    field.length = count ∧ bytes.length = count + rest.length := by
  unfold take? at taken
  split at taken
  · simp only [Option.some.injEq, Prod.mk.injEq] at taken
    obtain ⟨rfl, rfl⟩ := taken
    simp only [List.length_take, List.length_drop]
    omega
  · simp at taken

end Bytes

end ContractBuild
