import ContractBuild.Cache.Artifact
import ContractBuild.Codec.Response
import ContractBuild.Proofs.ByteForms

/-! What is kept in a cache is what was put there. A reader that takes a stored form at all takes
exactly the value that was stored; a form that is too large to be written down is not read as
anything else. -/
namespace ContractBuild.StoredForms
open ByteForms Codec

section Readers
variable {α : Type} {read : Bytes → Option (α × Bytes)} {form : α → Bytes}

/-- A reader takes nothing from the form of a value but that value. -/
def ReadsBack (read : Bytes → Option (α × Bytes)) (form : α → Bytes) : Prop :=
  ∀ ⦃value found : α⦄ ⦃rest left : Bytes⦄, read (form value ++ rest) = some (found, left) →
    found = value ∧ left = rest

/-- What follows the bytes that a reader takes does not change what it takes. -/
def Extends (read : Bytes → Option (α × Bytes)) : Prop :=
  ∀ ⦃bytes left : Bytes⦄ ⦃value : α⦄ (more : Bytes), read bytes = some (value, left) →
    read (bytes ++ more) = some (value, left ++ more)

theorem to_nat_little_endian_le (width n : Nat) :
    Bytes.toNat (Bytes.littleEndian width n) ≤ n := by
  induction width generalizing n with
  | zero => simp [Bytes.littleEndian, Bytes.toNat]
  | succ width ih =>
    have := ih (n / 256)
    simp only [Bytes.littleEndian, Bytes.toNat, UInt8.toNat_ofNat']
    omega

theorem read_tagged (tag : UInt8) (width written n : Nat) (rest : Bytes)
    (tagged : ¬ tag.toNat < firstTag) (known : tagWidth? tag.toNat = some written)
    (fits : written ≤ width → n < Bytes.capacity written) :
    readNumber? width (tag :: Bytes.littleEndian written n ++ rest) =
      if width < written then none else some (n, rest) := by
  rw [List.cons_append, readNumber?, if_neg tagged, known]
  dsimp only
  split
  · rfl
  · rename_i wide
    have taken := Bytes.take?_append (Bytes.littleEndian written n) rest
    rw [Bytes.length_littleEndian] at taken
    rw [taken, Option.map_some, Bytes.toNat_littleEndian _ _ (fits (Nat.not_lt.mp wide))]

/-- A number is read as itself, unless it is one that has no form of the width that is read. -/
theorem read_number {width n found : Nat} {rest left : Bytes}
    (fits : width < 16 ∨ n < Bytes.capacity 16)
    (taken : readNumber? width (number n ++ rest) = some (found, left)) :
    found = n ∧ left = rest := by
  have wide : 16 ≤ width → n < Bytes.capacity 16 := fun wide => fits.resolve_left (by omega)
  unfold number at taken
  split at taken
  · rename_i small
    have own : (UInt8.ofNat n).toNat = n := by
      simp only [firstTag] at small
      simp only [UInt8.toNat_ofNat']
      omega
    rw [List.cons_append, List.nil_append, readNumber?, own, if_pos small] at taken
    simp only [Option.some.injEq, Prod.mk.injEq] at taken
    exact ⟨taken.1.symm, taken.2.symm⟩
  · split at taken
    · rename_i bound
      rw [read_tagged 251 width 2 n rest (by decide) (by decide) fun _ => bound] at taken
      split at taken <;> simp_all
    · split at taken
      · rename_i bound
        rw [read_tagged 252 width 4 n rest (by decide) (by decide) fun _ => bound] at taken
        split at taken <;> simp_all
      · split at taken
        · rename_i bound
          rw [read_tagged 253 width 8 n rest (by decide) (by decide) fun _ => bound] at taken
          split at taken <;> simp_all
        · rw [read_tagged 254 width 16 n rest (by decide) (by decide) wide] at taken
          split at taken <;> simp_all

theorem text_reads_back : ReadsBack readText? text := by
  intro value found rest left taken
  simp only [text, List.append_assoc] at taken
  unfold readText? at taken
  split at taken
  · cases taken
  · rename_i length bytes sized
    obtain ⟨rfl, rfl⟩ := read_number (Or.inl (by decide)) sized
    rw [Bytes.take?_append] at taken
    dsimp only at taken
    rw [of_utf8_utf8, Option.map_some, String.ofList_toList] at taken
    simp only [Option.some.injEq, Prod.mk.injEq] at taken
    exact ⟨taken.1.symm, taken.2.symm⟩

theorem items_read_back (back : ReadsBack read form) (items : List α) {found : List α}
    {rest left : Bytes}
    (taken : readItems? read items.length (items.flatMap form ++ rest) = some (found, left)) :
    found = items ∧ left = rest := by
  induction items generalizing found left with
  | nil =>
    simp only [List.length_nil, readItems?, List.flatMap_nil, List.nil_append, Option.some.injEq,
      Prod.mk.injEq] at taken
    exact ⟨taken.1.symm, taken.2.symm⟩
  | cons item items ih =>
    simp only [List.length_cons, readItems?, List.flatMap_cons, List.append_assoc] at taken
    split at taken
    · cases taken
    · rename_i first bytes read
      obtain ⟨rfl, rfl⟩ := back read
      split at taken
      · cases taken
      · rename_i others bytes read
        obtain ⟨rfl, rfl⟩ := ih read
        simp only [Option.some.injEq, Prod.mk.injEq] at taken
        exact ⟨taken.1.symm, taken.2.symm⟩

theorem list_reads_back (back : ReadsBack read form) :
    ReadsBack (readList? read) (list form) := by
  intro items found rest left taken
  simp only [list, List.append_assoc] at taken
  unfold readList? at taken
  split at taken
  · cases taken
  · rename_i count bytes counted
    obtain ⟨rfl, rfl⟩ := read_number (Or.inl (by decide)) counted
    exact items_read_back back items taken

end Readers

theorem object_reads_back : ReadsBack readObject? object := by
  intro item found rest left taken
  simp only [object, List.append_assoc, readObject?] at taken
  obtain ⟨⟨name, bytes⟩, first, taken⟩ := Option.bind_eq_some_iff.mp taken
  obtain ⟨rfl, rfl⟩ := text_reads_back first
  obtain ⟨⟨bytecode, bytes⟩, second, taken⟩ := Option.bind_eq_some_iff.mp taken
  obtain ⟨rfl, rfl⟩ := text_reads_back second
  obtain ⟨⟨interface, bytes⟩, third, taken⟩ := Option.bind_eq_some_iff.mp taken
  obtain ⟨rfl, rfl⟩ := text_reads_back third
  obtain ⟨rfl, rfl⟩ := Prod.mk.inj (Option.some.inj taken)
  exact ⟨rfl, rfl⟩

/-- What is read as a response where a response is kept is that response. -/
theorem response_reads_back : ReadsBack readResponse? response := by
  intro value found rest left taken
  simp only [response, List.append_assoc, readResponse?] at taken
  obtain ⟨⟨objects, bytes⟩, first, taken⟩ := Option.bind_eq_some_iff.mp taken
  obtain ⟨rfl, rfl⟩ := list_reads_back object_reads_back first
  obtain ⟨⟨warning, bytes⟩, second, taken⟩ := Option.bind_eq_some_iff.mp taken
  obtain ⟨rfl, rfl⟩ := text_reads_back second
  obtain ⟨⟨version, bytes⟩, third, taken⟩ := Option.bind_eq_some_iff.mp taken
  obtain ⟨rfl, rfl⟩ := text_reads_back third
  obtain ⟨⟨error, bytes⟩, fourth, taken⟩ := Option.bind_eq_some_iff.mp taken
  obtain ⟨rfl, rfl⟩ := text_reads_back fourth
  obtain ⟨rfl, rfl⟩ := Prod.mk.inj (Option.some.inj taken)
  exact ⟨rfl, rfl⟩

section Extending
variable {bytes left : Bytes}

theorem take_extends {count : Nat} {field : Bytes} (more : Bytes)
    (taken : Bytes.take? count bytes = some (field, left)) :
    Bytes.take? count (bytes ++ more) = some (field, left ++ more) := by
  unfold Bytes.take? at taken ⊢
  split at taken
  · rename_i enough
    simp only [Option.some.injEq, Prod.mk.injEq] at taken
    obtain ⟨rfl, rfl⟩ := taken
    rw [if_pos (by simp only [List.length_append]; omega), List.take_append_of_le_length enough,
      List.drop_append_of_le_length enough]
  · cases taken

theorem number_extends (width : Nat) : Extends (readNumber? width) := by
  intro bytes left value more taken
  cases bytes with
  | nil => cases taken
  | cons tag bytes =>
    rw [readNumber?] at taken
    rw [List.cons_append, readNumber?]
    split
    · rename_i small
      rw [if_pos small] at taken
      simp only [Option.some.injEq, Prod.mk.injEq] at taken
      rw [taken.1, taken.2]
    · rename_i tagged
      rw [if_neg tagged] at taken
      split at taken
      · cases taken
      · split at taken
        · cases taken
        · rename_i wide
          obtain ⟨⟨digits, rest⟩, whole, same⟩ := Option.map_eq_some_iff.mp taken
          obtain ⟨rfl, rfl⟩ := Prod.mk.inj same
          rw [if_neg wide, take_extends more whole]
          rfl

theorem text_extends : Extends readText? := by
  intro bytes left value more taken
  unfold readText? at taken ⊢
  split at taken
  · cases taken
  · rename_i length rest counted
    rw [number_extends _ more counted]
    dsimp only
    split at taken
    · cases taken
    · rename_i content rest' whole
      rw [take_extends more whole]
      obtain ⟨text, decoded, same⟩ := Option.map_eq_some_iff.mp taken
      obtain ⟨rfl, rfl⟩ := Prod.mk.inj same
      simp only [decoded, Option.map_some]

theorem header_extends : Extends Artifact.Header.read? := by
  intro bytes left value more taken
  unfold Artifact.Header.read? at taken ⊢
  obtain ⟨⟨magic, rest⟩, first, taken⟩ := Option.bind_eq_some_iff.mp taken
  obtain ⟨⟨format, rest⟩, second, taken⟩ := Option.bind_eq_some_iff.mp taken
  obtain ⟨⟨compilerVersion, rest⟩, third, taken⟩ := Option.bind_eq_some_iff.mp taken
  obtain ⟨⟨checksum, rest⟩, fourth, taken⟩ := Option.bind_eq_some_iff.mp taken
  obtain ⟨rfl, rfl⟩ := Prod.mk.inj (Option.some.inj taken)
  simp [take_extends more first, number_extends _ more second, text_extends more third,
    number_extends _ more fourth]

end Extending

private theorem header_reads_back (artifact : Artifact) {found : Artifact.Header}
    {rest left : Bytes}
    (taken : Artifact.Header.read? ((Artifact.Header.ofArtifact artifact).encode ++ rest) =
      some (found, left)) :
    found = Artifact.Header.ofArtifact artifact ∧ left = rest := by
  simp only [Artifact.Header.encode, Artifact.Header.ofArtifact, List.append_assoc,
    Artifact.Header.read?] at taken
  obtain ⟨⟨magic, bytes⟩, first, taken⟩ := Option.bind_eq_some_iff.mp taken
  have start := Bytes.take?_append Artifact.magic
  rw [show (4 : Nat) = Artifact.magic.length from rfl, start] at first
  obtain ⟨rfl, rfl⟩ := Prod.mk.inj (Option.some.inj first)
  obtain ⟨⟨format, bytes⟩, second, taken⟩ := Option.bind_eq_some_iff.mp taken
  obtain ⟨rfl, rfl⟩ := read_number (Or.inl (by decide)) second
  obtain ⟨⟨compilerVersion, bytes⟩, third, taken⟩ := Option.bind_eq_some_iff.mp taken
  obtain ⟨rfl, rfl⟩ := text_reads_back third
  obtain ⟨⟨checksum, bytes⟩, fourth, taken⟩ := Option.bind_eq_some_iff.mp taken
  obtain ⟨rfl, rfl⟩ := read_number (Or.inr (Xxh3.checksum_lt _)) fourth
  obtain ⟨rfl, rfl⟩ := Prod.mk.inj (Option.some.inj taken)
  exact ⟨rfl, rfl⟩

/-- What is read as an artifact from a file that an artifact was written to is that artifact. -/
theorem decode_encode {artifact found : Artifact}
    (read : Artifact.decode? artifact.encode = some found) : found = artifact := by
  simp only [Artifact.decode?, Artifact.encode, List.append_assoc] at read
  obtain ⟨⟨length, rest⟩, first, read⟩ := Option.bind_eq_some_iff.mp read
  generalize counted : (Artifact.Header.ofArtifact artifact).encode.length = size at first
  have start := Bytes.take?_append (Bytes.littleEndian 4 size)
  rw [Bytes.length_littleEndian] at start
  rw [start] at first
  obtain ⟨rfl, rfl⟩ := Prod.mk.inj (Option.some.inj first)
  obtain ⟨⟨front, payload⟩, second, read⟩ := Option.bind_eq_some_iff.mp read
  obtain ⟨⟨header, left⟩, third, read⟩ := Option.bind_eq_some_iff.mp read
  dsimp only at second third read
  have whole : front ++ payload =
      (Artifact.Header.ofArtifact artifact).encode ++ artifact.payload := by
    unfold Bytes.take? at second
    split at second
    · obtain ⟨rfl, rfl⟩ := Prod.mk.inj (Option.some.inj second)
      exact List.take_append_drop ..
    · cases second
  have sizes := Bytes.length_of_take? second
  have wrapped := to_nat_little_endian_le 4 size
  have extended := header_extends payload third
  rw [whole] at extended
  obtain ⟨rfl, tail⟩ := header_reads_back artifact extended
  have lengths := congrArg List.length tail
  simp only [List.length_append, counted] at lengths sizes
  have none : left = [] := List.eq_nil_of_length_eq_zero (by omega)
  rw [none, List.nil_append] at tail
  split at read
  · rw [tail] at read
    exact (Option.some.inj read).symm
  · cases read

end ContractBuild.StoredForms
