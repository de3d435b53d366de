import ContractBuild.Proofs.StrippedCode

/-! What is removed from code of an unknown release. It is what the code announces at its end, and
that is genuine metadata but for one thing: the field that tells the length may have a sign, and then it
is no hexadecimal number of two bytes. -/
namespace ContractBuild.GenuineTrailers
open Bytecode StrippedCode
open PathWalk (byte_length_append)

variable {code body : List Char}

/-- The fourth character from the end is a plus sign. -/
def SignedEnd (code : List Char) : Prop := ∃ front a b c, code = front ++ ['+', a, b, c]

/-- A field without a sign makes an announcement genuine. -/
def genuine (announced : Announcement) (hexadecimal : ∀ c ∈ announced.field, IsHex c)
    (same : announced.count = hexNumber announced.field) : Trailer where
  header := announced.header
  middle := announced.middle
  digits := announced.field
  opens := announced.opens
  four := (hex_length hexadecimal).symm.trans announced.four
  hexadecimal := hexadecimal
  inhabited := same ▸ announced.inhabited
  counted := same ▸ announced.counted

/-- What is announced is genuine, or the number in its field has a sign and three digits. -/
theorem genuine_or_signed (announced : Announcement) :
    (∃ trailer : Trailer, announced.text = trailer.text) ∨
      ∃ digits, announced.field = '+' :: digits ∧ digits.length = 3 ∧ (∀ c ∈ digits, IsHex c) ∧
        announced.count = hexNumber digits := by
  obtain ⟨digits, -, hex, same, unsigned | signed⟩ := number_read.mp announced.read
  · subst unsigned
    exact .inl ⟨genuine announced hex same, rfl⟩
  · have sign : '+'.utf8Size = 1 := by decide
    have four := announced.four
    rw [signed, Text.byteLength, hex_length hex, sign] at four
    exact .inr ⟨digits, signed, by omega, hex, same⟩

/-- Genuine metadata ends in four digits, none of which is a sign. -/
theorem unsigned_of_genuine (body : List Char) (trailer : Trailer) :
    ¬ SignedEnd (body ++ trailer.text) := by
  rintro ⟨front, a, b, c, same⟩
  have ends : (body ++ (trailer.header ++ trailer.middle)) ++ trailer.digits =
      front ++ ['+', a, b, c] := by
    rw [← same, Trailer.text]
    simp
  have digits := (List.append_inj' ends trailer.four).2
  exact absurd (trailer.hexadecimal '+' (by simp [digits])) (by decide)

/-- A field of a sign and three digits is the end of the code. -/
theorem signed_end {announced : Announcement} {digits : List Char}
    (signed : announced.field = '+' :: digits) (three : digits.length = 3) (body : List Char) :
    SignedEnd (body ++ announced.text) := by
  obtain ⟨a, b, c, rfl⟩ := List.length_eq_three.mp three
  refine ⟨body ++ (announced.header ++ announced.middle), a, b, c, ?_⟩
  rw [Announcement.text, signed]
  simp

/-- Code of an unknown release that is changed loses what it announces. -/
theorem changed_announced {policy : StripPolicy} (changed : policy.strip none code ≠ code) :
    ∃ announced : Announcement, code = policy.strip none code ++ announced.text := by
  have any : trailerLength code ≠ 0 := by
    intro none
    apply changed
    have length : policy.stripLength Option.none code = 0 := none
    rw [StripPolicy.strip, length, dropEnd]
    simp
  obtain ⟨body, announced, rfl⟩ := announced_of_length any
  rw [strip_announced]
  exact ⟨announced, rfl⟩

/-- What is removed from code of an unknown release is genuine metadata, with a length of at most two
bytes, exactly if the code does not end in a sign and three characters. If it does, the three are the
digits of the length that is removed. -/
theorem removed_genuine_iff (policy : StripPolicy) (code : List Char)
    (changed : policy.strip none code ≠ code) :
    ((∃ trailer : Trailer, code = policy.strip none code ++ trailer.text ∧
        hexNumber trailer.digits ≤ 65535) ↔ ¬ SignedEnd code) ∧
      (SignedEnd code → ∃ (announced : Announcement) (digits : List Char),
        code = policy.strip none code ++ announced.text ∧ announced.field = '+' :: digits ∧
          digits.length = 3 ∧ (∀ c ∈ digits, IsHex c) ∧ announced.count = hexNumber digits) := by
  obtain ⟨announced, whole⟩ := changed_announced changed
  rcases genuine_or_signed announced with ⟨trailer, text⟩ | ⟨digits, signed, three, hex, same⟩
  · have unsigned : ¬ SignedEnd code := by
      rw [whole, text]
      exact unsigned_of_genuine _ trailer
    have limit : Nat.pow 16 4 = 65536 := rfl
    have small := number_bound trailer.hexadecimal
    rw [trailer.four, limit] at small
    refine ⟨⟨fun _ => unsigned, fun _ => ⟨trailer, text ▸ whole, by omega⟩⟩, ?_⟩
    exact fun ends => absurd ends unsigned
  · have ends : SignedEnd code := by
      rw [whole]
      exact signed_end signed three _
    refine ⟨⟨?_, fun unsigned => absurd ends unsigned⟩, ?_⟩
    · rintro ⟨trailer, genuine, -⟩
      rw [genuine]
      exact unsigned_of_genuine _ trailer
    · exact fun _ => ⟨announced, digits, whole, signed, three, hex, same⟩

/-- Metadata with a header in capitals is removed and is genuine. -/
theorem capital_header_genuine :
    StripPolicy.default.strip none "60A1ff0002".toList ≠ "60A1ff0002".toList ∧
      ∃ trailer : Trailer,
        "60A1ff0002".toList = StripPolicy.default.strip none "60A1ff0002".toList ++ trailer.text ∧
          hexNumber trailer.digits ≤ 65535 := by
  have removed : StripPolicy.default.strip none "60A1ff0002".toList = "60".toList :=
    strip_announced .default "60".toList ⟨['A', '1'], ['f', 'f'], ['0', '0', '0', '2'], 2,
      by decide, rfl, by decide, by decide, by decide⟩
  have changed : StripPolicy.default.strip none "60A1ff0002".toList ≠ "60A1ff0002".toList := by
    rw [removed]
    decide
  refine ⟨changed, (removed_genuine_iff .default _ changed).1.mpr ?_⟩
  rintro ⟨front, a, b, c, same⟩
  have sign : '+' ∈ "60A1ff0002".toList := same ▸ by simp
  exact absurd sign (by decide)

/-- A sign in the field of the length passes for a digit, and code that ends in no hexadecimal number
is removed. -/
theorem signed_length_removed :
    StripPolicy.default.strip none "a1+001".toList ≠ "a1+001".toList ∧
      ¬ ∃ trailer : Trailer,
        "a1+001".toList = StripPolicy.default.strip none "a1+001".toList ++ trailer.text := by
  have removed : StripPolicy.default.strip none "a1+001".toList = [] :=
    strip_announced .default [] ⟨['a', '1'], [], ['+', '0', '0', '1'], 1, by decide, rfl, by decide,
      by decide, by decide⟩
  refine ⟨by rw [removed]; decide, ?_⟩
  rintro ⟨trailer, genuine⟩
  have ends : SignedEnd "a1+001".toList := ⟨['a', '1'], '0', '0', '1', rfl⟩
  exact unsigned_of_genuine _ trailer (genuine ▸ ends)

end ContractBuild.GenuineTrailers
