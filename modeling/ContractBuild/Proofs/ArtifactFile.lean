import ContractBuild.Proofs.CompileSteps
import ContractBuild.Proofs.MovedFiles
import ContractBuild.Proofs.RequestIdentity

/-! Artifact files are read as what was written to them. A file that is torn, that goes on or that
has another payload is not read at all, unless the checksums are the same. Its header has no checksum
of its own: what stands there instead of the version is taken for the version. -/
namespace ContractBuild.ArtifactFile
open ByteForms CacheChange CachePlace CacheRoom Codec CompileSteps FileTree MovedFiles
open RequestIdentity StoredForms WrittenFiles

section Forms
variable {α : Type} {read : Bytes → Option (α × Bytes)} {form : α → Bytes} {fits : α → Prop}

/-- A reader takes every value that fits from its form, and leaves the rest. -/
def Reads (fits : α → Prop) (read : Bytes → Option (α × Bytes)) (form : α → Bytes) : Prop :=
  ∀ ⦃value⦄, fits value → ∀ rest, read (form value ++ rest) = some (value, rest)

theorem small_number_reads {n : Nat} (small : n < firstTag) (width : Nat) (rest : Bytes) :
    readNumber? width (number n ++ rest) = some (n, rest) := by
  have own : (UInt8.ofNat n).toNat = n := by
    simp only [firstTag] at small
    simp only [UInt8.toNat_ofNat']
    omega
  rw [number, if_pos small, List.cons_append, List.nil_append, readNumber?, own, if_pos small]

/-- A number is read in every form that it is written in. -/
theorem number_reads {width n : Nat} (known : width = 8 ∨ width = 16)
    (bound : n < Bytes.capacity width) (rest : Bytes) :
    readNumber? width (number n ++ rest) = some (n, rest) := by
  by_cases small : n < firstTag
  · exact small_number_reads small width rest
  have wide : 8 ≤ width := by omega
  rw [number, if_neg small]
  split
  · rename_i two
    rw [read_tagged 251 width 2 n rest (by decide) (by decide) fun _ => two, if_neg (by omega)]
  · split
    · rename_i four
      rw [read_tagged 252 width 4 n rest (by decide) (by decide) fun _ => four, if_neg (by omega)]
    · split
      · rename_i eight
        rw [read_tagged 253 width 8 n rest (by decide) (by decide) fun _ => eight,
          if_neg (by omega)]
      · rename_i large
        rcases known with rfl | rfl
        · exact absurd bound large
        · rw [read_tagged 254 16 16 n rest (by decide) (by decide) fun _ => bound,
            if_neg (by omega)]

theorem length_reads {count : Nat} (fits : RequestIdentity.Countable count) (rest : Bytes) :
    readNumber? lengthWidth (number count ++ rest) = some (count, rest) :=
  number_reads (Or.inl rfl) fits rest

theorem text_reads : Reads TextFits readText? text := by
  intro value fits rest
  rw [text, List.append_assoc, readText?, length_reads fits]
  dsimp only
  rw [Bytes.take?_append]
  dsimp only
  rw [of_utf8_utf8, Option.map_some, String.ofList_toList]

theorem items_read (reads : Reads fits read form) {items : List α}
    (all : ∀ item ∈ items, fits item) (rest : Bytes) :
    readItems? read items.length (items.flatMap form ++ rest) = some (items, rest) := by
  induction items with
  | nil => rfl
  | cons item items ih =>
    rw [List.length_cons, readItems?, List.flatMap_cons, List.append_assoc,
      reads (all item (by simp))]
    dsimp only
    rw [ih fun other inside => all other (List.mem_cons_of_mem _ inside)]

theorem list_reads (reads : Reads fits read form) :
    Reads (fun items => RequestIdentity.Countable items.length ∧ ∀ item ∈ items, fits item)
      (readList? read) (list form) := by
  intro items all rest
  rw [list, List.append_assoc, readList?, length_reads all.1]
  exact items_read reads all.2 rest

end Forms

section Responses

/-- An object whose texts have lengths that fit. -/
structure ObjectFits (item : CompiledObject) : Prop where
  name : TextFits item.name
  bytecode : TextFits item.bytecode
  interface : TextFits item.interface

/-- A response of which every length fits in the eight bytes that lengths have. -/
structure ResponseFits (response : Response) : Prop where
  count : RequestIdentity.Countable response.objects.length
  objects : ∀ item ∈ response.objects, ObjectFits item
  warning : TextFits response.warning
  version : TextFits response.version
  error : TextFits response.error

instance (item : CompiledObject) : Decidable (ObjectFits item) :=
  decidable_of_iff (TextFits item.name ∧ TextFits item.bytecode ∧ TextFits item.interface)
    ⟨fun ⟨name, bytecode, interface⟩ => ⟨name, bytecode, interface⟩,
      fun ⟨name, bytecode, interface⟩ => ⟨name, bytecode, interface⟩⟩

instance (response : Response) : Decidable (ResponseFits response) :=
  decidable_of_iff (RequestIdentity.Countable response.objects.length ∧
      (∀ item ∈ response.objects, ObjectFits item) ∧ TextFits response.warning ∧
      TextFits response.version ∧ TextFits response.error)
    ⟨fun ⟨count, objects, warning, version, error⟩ => ⟨count, objects, warning, version, error⟩,
      fun ⟨count, objects, warning, version, error⟩ => ⟨count, objects, warning, version, error⟩⟩

theorem object_reads : Reads ObjectFits readObject? object := by
  intro item fits rest
  simp only [object, List.append_assoc, readObject?, text_reads fits.name, text_reads fits.bytecode,
    text_reads fits.interface, Option.bind_eq_bind, Option.bind_some]
  rfl

/-- The form of a response is read as the response. -/
theorem response_reads : Reads ResponseFits readResponse? response := by
  intro value fits rest
  simp only [response, List.append_assoc, readResponse?,
    list_reads object_reads ⟨fits.count, fits.objects⟩, text_reads fits.warning,
    text_reads fits.version, text_reads fits.error, Option.bind_eq_bind, Option.bind_some]
  rfl

end Responses

section Contents
variable {artifact found : Artifact} {content payload : Bytes}

/-- The length of a header fits in the four bytes before it. -/
def HeaderFits (artifact : Artifact) : Prop :=
  (Artifact.Header.ofArtifact artifact).encode.length < Bytes.capacity 4

instance (artifact : Artifact) : Decidable (HeaderFits artifact) :=
  inferInstanceAs (Decidable (_ < _))

/-- What stands before the payload in an artifact file: the length of the header and the header. -/
def front (artifact : Artifact) : Bytes :=
  Bytes.littleEndian 4 (Artifact.Header.ofArtifact artifact).encode.length ++
    (Artifact.Header.ofArtifact artifact).encode

theorem encode_eq (artifact : Artifact) : artifact.encode = front artifact ++ artifact.payload := rfl

theorem version_fits (fits : HeaderFits artifact) : TextFits artifact.compilerVersion := by
  unfold HeaderFits at fits
  simp only [Artifact.Header.encode, Artifact.Header.ofArtifact, Codec.text, List.length_append] at fits
  have wider : Bytes.capacity 4 < Bytes.capacity 8 := by decide
  rw [TextFits, RequestIdentity.Countable]
  omega

theorem header_reads (fits : TextFits artifact.compilerVersion) (rest : Bytes) :
    Artifact.Header.read? ((Artifact.Header.ofArtifact artifact).encode ++ rest) =
      some (Artifact.Header.ofArtifact artifact, rest) := by
  have start := Bytes.take?_append Artifact.magic
  rw [show Artifact.magic.length = 4 from rfl] at start
  simp only [Artifact.Header.encode, Artifact.Header.ofArtifact, List.append_assoc,
    Artifact.Header.read?, start, small_number_reads (show Artifact.format < firstTag by decide),
    text_reads fits, number_reads (Or.inr rfl) (Xxh3.checksum_lt _), Option.bind_eq_bind,
    Option.bind_some]
  rfl

/-- The header that is read at the start of bytes, and what its length leaves for the payload. -/
def parts? (content : Bytes) : Option (Artifact.Header × Bytes) := do
  let (length, rest) ← Bytes.take? 4 content
  let (header, payload) ← Bytes.take? (Bytes.toNat length) rest
  let (header, _) ← Artifact.Header.read? header
  return (header, payload)

/-- An artifact is what a header that fits says of the payload that it leaves. -/
theorem decode_iff : Artifact.decode? content = some found ↔
    ∃ header, parts? content = some (header, found.payload) ∧
      header.fits found.payload = true ∧ header.compilerVersion = found.compilerVersion := by
  simp only [Artifact.decode?, parts?, Option.bind_eq_bind, Option.bind_eq_some_iff]
  constructor
  · rintro ⟨⟨length, rest⟩, first, ⟨bytes, payload⟩, second, ⟨header, left⟩, third, taken⟩
    dsimp only at taken
    split at taken
    · rename_i fits
      obtain rfl := Option.some.inj taken
      exact ⟨header, ⟨_, first, _, second, _, third, rfl⟩, fits, rfl⟩
    · cases taken
  · rintro ⟨header, ⟨⟨length, rest⟩, first, ⟨bytes, payload⟩, second, ⟨header', left⟩, third, taken⟩,
      fits, version⟩
    obtain ⟨rfl, rfl⟩ := Prod.mk.inj (Option.some.inj taken)
    refine ⟨_, first, _, second, _, third, ?_⟩
    dsimp only
    rw [if_pos fits, version]

/-- Where the length field says how long the header is, the header is read from all of it. -/
theorem parts_of_length {header : Bytes} (fits : header.length < Bytes.capacity 4)
    (payload : Bytes) : parts? (Bytes.littleEndian 4 header.length ++ header ++ payload) =
      (Artifact.Header.read? header).map fun (header, _) => (header, payload) := by
  have start := Bytes.take?_append (Bytes.littleEndian 4 header.length) (header ++ payload)
  rw [Bytes.length_littleEndian] at start
  simp only [parts?, List.append_assoc, start, Option.bind_eq_bind, Option.bind_some,
    Bytes.toNat_littleEndian 4 _ fits, Bytes.take?_append]
  cases Artifact.Header.read? header <;> rfl

/-- Where the front of an artifact stands, its header is read, whatever follows. -/
theorem parts_front (fits : HeaderFits artifact) (payload : Bytes) :
    parts? (front artifact ++ payload) = some (Artifact.Header.ofArtifact artifact, payload) := by
  have whole := header_reads (version_fits fits) []
  rw [List.append_nil] at whole
  rw [front, parts_of_length fits, whole, Option.map_some]

/-- With another payload an artifact file is read as that payload if the checksums are the same, and
not at all if they are not. -/
theorem decode_front (fits : HeaderFits artifact) (payload : Bytes) :
    Artifact.decode? (front artifact ++ payload) =
      if Xxh3.checksum payload = Xxh3.checksum artifact.payload then
        some ⟨artifact.compilerVersion, payload⟩
      else none := by
  have checked : (Artifact.Header.ofArtifact artifact).fits payload = true ↔
      Xxh3.checksum payload = Xxh3.checksum artifact.payload := by
    simp [Artifact.Header.fits, Artifact.Header.ofArtifact, eq_comm]
  split
  · rename_i same
    exact decode_iff.mpr ⟨_, parts_front fits payload, checked.mpr same, rfl⟩
  · rename_i other
    refine Option.eq_none_iff_forall_ne_some.mpr fun found taken => other ?_
    obtain ⟨header, parts, fit, -⟩ := decode_iff.mp taken
    obtain ⟨rfl, rfl⟩ := Prod.mk.inj (Option.some.inj ((parts_front fits payload).symm.trans parts))
    exact checked.mp fit

/-- An artifact file is read as the artifact. -/
theorem decode_written (fits : HeaderFits artifact) :
    Artifact.decode? artifact.encode = some artifact := by
  rw [encode_eq, decode_front fits, if_pos rfl]

theorem length_front (artifact : Artifact) : (front artifact).length =
    4 + (Artifact.Header.ofArtifact artifact).encode.length := by simp [front]

private theorem to_nat_lt (bytes : Bytes) : Bytes.toNat bytes < Bytes.capacity bytes.length := by
  induction bytes with
  | nil => simp [Bytes.toNat, Bytes.capacity]
  | cons byte bytes ih =>
    have small := byte.toNat_lt
    simp only [Bytes.toNat, Bytes.capacity, List.length_cons]
    omega

/-- An artifact file is read exactly if the length of its header fits. -/
theorem decode_some_iff : (Artifact.decode? artifact.encode).isSome = true ↔
    HeaderFits artifact := by
  constructor
  · intro some
    obtain ⟨found, read⟩ := Option.isSome_iff_exists.mp some
    obtain rfl := decode_encode read
    obtain ⟨header, parts, -⟩ := decode_iff.mp read
    unfold parts? at parts
    obtain ⟨⟨length, rest⟩, first, parts⟩ := Option.bind_eq_some_iff.mp parts
    obtain ⟨⟨bytes, payload⟩, second, parts⟩ := Option.bind_eq_some_iff.mp parts
    obtain ⟨⟨header', left⟩, -, parts⟩ := Option.bind_eq_some_iff.mp parts
    obtain ⟨-, rfl⟩ := Prod.mk.inj (Option.some.inj parts)
    -- The payload is all that is left, so the length field tells the length of the whole header.
    obtain ⟨four, whole⟩ := Bytes.length_of_take? first
    obtain ⟨-, rest⟩ := Bytes.length_of_take? second
    have bound := to_nat_lt length
    rw [four] at bound
    rw [encode_eq, List.length_append, length_front] at whole
    rw [HeaderFits]
    omega
  · intro fits
    rw [decode_written fits]
    rfl

/-- A version text of so many letters is too long for the header. -/
theorem long_version_unfit {count : Nat} (long : Bytes.capacity 4 ≤ count) (payload : Bytes) :
    ¬ HeaderFits ⟨String.ofList (List.replicate count 'a'), payload⟩ := by
  have single : 'a'.utf8Size = 1 := by decide
  have size : (Text.utf8 (List.replicate count 'a')).length = count := by
    simp [Text.utf8, List.length_flatMap, single]
  rw [HeaderFits, Artifact.Header.ofArtifact, Artifact.Header.encode]
  simp only [Codec.text, String.toList_ofList, List.length_append, size]
  omega

section Headers

/-- An artifact file in which any bytes of the length field and the header are overwritten. -/
def Overwritten (artifact : Artifact) (content : Bytes) : Prop :=
  ∃ other, other.length = (front artifact).length ∧ content = other ++ artifact.payload

/-- A header that is read and fits the payload that it leaves has the version and the checksum that
were written. -/
def Harmless (artifact : Artifact) (content : Bytes) : Prop :=
  ∀ header payload, parts? content = some (header, payload) → header.fits payload = true →
    header.compilerVersion = artifact.compilerVersion ∧
      header.checksum = Xxh3.checksum artifact.payload

/-- No other payload that the length field may leave has the checksum of the artifact's. -/
def ChecksumTells (artifact : Artifact) (content : Bytes) : Prop :=
  ∀ header payload, parts? content = some (header, payload) →
    Xxh3.checksum payload = Xxh3.checksum artifact.payload → payload = artifact.payload

theorem checksum_of_fits {header : Artifact.Header} (fits : header.fits payload = true) :
    header.checksum = Xxh3.checksum payload := by
  simp only [Artifact.Header.fits, Bool.and_eq_true, decide_eq_true_eq] at fits
  exact fits.2

/-- Nothing but the artifact is read exactly if the damage is harmless. -/
theorem decode_harmless_iff (tells : ChecksumTells artifact content) :
    (Artifact.decode? content = none ∨ Artifact.decode? content = some artifact) ↔
      Harmless artifact content := by
  constructor
  · rintro held header payload parts fits
    have taken : Artifact.decode? content = some ⟨header.compilerVersion, payload⟩ :=
      decode_iff.mpr ⟨header, parts, fits, rfl⟩
    rcases held with missed | same
    · cases missed.symm.trans taken
    · obtain rfl := Option.some.inj (same.symm.trans taken)
      exact ⟨rfl, checksum_of_fits fits⟩
  · intro harmless
    cases taken : Artifact.decode? content with
    | none => exact Or.inl rfl
    | some found =>
      obtain ⟨header, parts, fits, version⟩ := decode_iff.mp taken
      obtain ⟨version', checksum⟩ := harmless header found.payload parts fits
      have payload := tells header found.payload parts ((checksum_of_fits fits).symm.trans checksum)
      rw [version] at version'
      cases found
      simp_all

/-- Overwriting what follows the length field leaves the payload where it is. -/
private theorem overwritten_header (overwritten : Overwritten artifact content)
    (spared : content.take 4 = (front artifact).take 4) :
    ∃ header : Bytes, header.length = (Artifact.Header.ofArtifact artifact).encode.length ∧
      content = Bytes.littleEndian 4 header.length ++ header ++ artifact.payload := by
  obtain ⟨other, sized, rfl⟩ := overwritten
  rw [length_front] at sized
  have length : other.take 4 =
      Bytes.littleEndian 4 (Artifact.Header.ofArtifact artifact).encode.length := by
    rw [List.take_append_of_le_length (by omega), front,
      List.take_append_of_le_length (by simp)] at spared
    rw [spared, List.take_of_length_le (by simp)]
  have counted : (other.drop 4).length = (Artifact.Header.ofArtifact artifact).encode.length := by
    rw [List.length_drop]
    omega
  refine ⟨other.drop 4, counted, ?_⟩
  rw [counted, ← length, List.take_append_drop]

/-- If the length field is left alone, no other payload is read. -/
theorem payload_kept (fits : HeaderFits artifact) (overwritten : Overwritten artifact content)
    (spared : content.take 4 = (front artifact).take 4) {header : Artifact.Header}
    (parts : parts? content = some (header, payload)) : payload = artifact.payload := by
  obtain ⟨bytes, sized, rfl⟩ := overwritten_header overwritten spared
  rw [parts_of_length (by rw [sized]; exact fits)] at parts
  obtain ⟨⟨header', rest⟩, -, same⟩ := Option.map_eq_some_iff.mp parts
  exact (Prod.mk.inj same).2.symm

/-- What stands in a header before the checksum. -/
def untilChecksum (artifact : Artifact) : Bytes :=
  Artifact.magic ++ number Artifact.format ++ Codec.text artifact.compilerVersion

theorem version_of_start (fits : TextFits artifact.compilerVersion) {more rest : Bytes}
    {header : Artifact.Header}
    (read : Artifact.Header.read? (untilChecksum artifact ++ more) = some (header, rest)) :
    header.compilerVersion = artifact.compilerVersion := by
  have start := Bytes.take?_append Artifact.magic
  rw [show Artifact.magic.length = 4 from rfl] at start
  simp only [untilChecksum, List.append_assoc, Artifact.Header.read?, start,
    small_number_reads (show Artifact.format < firstTag by decide), text_reads fits,
    Option.bind_eq_bind, Option.bind_some] at read
  obtain ⟨⟨checksum, left⟩, -, read⟩ := Option.bind_eq_some_iff.mp read
  obtain ⟨rfl, -⟩ := Prod.mk.inj (Option.some.inj read)
  rfl

/-- Overwriting nothing but the checksum is harmless. -/
theorem checksum_harmless (fits : HeaderFits artifact) (overwritten : Overwritten artifact content)
    (length : content.take 4 = (front artifact).take 4)
    (spared : untilChecksum artifact <+: content.drop 4) : Harmless artifact content := by
  intro header payload parts fit
  obtain rfl := payload_kept fits overwritten length parts
  refine ⟨?_, checksum_of_fits fit⟩
  obtain ⟨bytes, sized, rfl⟩ := overwritten_header overwritten length
  rw [parts_of_length (by rw [sized]; exact fits)] at parts
  obtain ⟨⟨header', rest⟩, read, same⟩ := Option.map_eq_some_iff.mp parts
  obtain ⟨rfl, -⟩ := Prod.mk.inj same
  rw [List.append_assoc, List.drop_append_of_le_length (by simp),
    List.drop_of_length_le (by simp), List.nil_append] at spared
  have short : (untilChecksum artifact).length ≤ bytes.length := by
    rw [sized]
    simp only [untilChecksum, Artifact.Header.encode, Artifact.Header.ofArtifact,
      List.length_append]
    omega
  obtain ⟨more, rfl⟩ :=
    List.prefix_of_prefix_length_le spared (List.prefix_append bytes _) short
  exact version_of_start (version_fits fits) read

/-- Every version text of the same length may be written over the version of an artifact, and is
read as its version then. -/
theorem other_version_read {version : String}
    (long : (Codec.text version).length = (Codec.text artifact.compilerVersion).length)
    (fits : HeaderFits artifact) :
    Overwritten artifact (Artifact.encode ⟨version, artifact.payload⟩) ∧
      Artifact.decode? (Artifact.encode ⟨version, artifact.payload⟩) =
        some ⟨version, artifact.payload⟩ := by
  have sized : (Artifact.Header.ofArtifact ⟨version, artifact.payload⟩).encode.length =
      (Artifact.Header.ofArtifact artifact).encode.length := by
    simp only [Artifact.Header.encode, Artifact.Header.ofArtifact, List.length_append, long]
  refine ⟨⟨front ⟨version, artifact.payload⟩, ?_, rfl⟩, decode_written ?_⟩
  · rw [length_front, length_front, sized]
  · rw [HeaderFits, sized]
    exact fits

end Headers

end Contents

section Files
variable {cache : Cache} {digest : Digest} {name : String} {w after : Workspace}
  {artifact : Artifact} {content : Bytes}

/-- The entry of a digest is the response in its artifact, under the version of the artifact. -/
theorem entry_of_artifact {response : Response} {rest : Bytes}
    (kept : cache.readArtifact? w digest Cache.resultName = some artifact)
    (read : readResponse? artifact.payload = some (response, rest)) :
    cache.getEntry? w digest = some ⟨response, artifact.compilerVersion⟩ := by
  simp only [Cache.getEntry?, kept, Option.bind_eq_bind, Option.bind_some, read]
  rfl

theorem artifact_of_entry {entry : CacheEntry} (found : cache.getEntry? w digest = some entry) :
    ∃ payload, cache.readArtifact? w digest Cache.resultName =
      some ⟨entry.compilerVersion, payload⟩ := by
  obtain ⟨artifact, kept, found⟩ := Option.bind_eq_some_iff.mp found
  obtain ⟨⟨value, rest⟩, -, found⟩ := Option.bind_eq_some_iff.mp found
  obtain rfl := Option.some.inj found
  exact ⟨artifact.payload, kept⟩

/-- The artifact of a response under a version. -/
def responseArtifact (response : Response) (version : String) : Artifact :=
  ⟨version, Codec.response response⟩

/-- What was put is found exactly if the directory of the digest is still found. -/
theorem put_entry {response : Response} {version : String} (fits : ResponseFits response)
    (room : HeaderFits (responseArtifact response version))
    (done : cache.put digest response version w = .ok () after) :
    cache.getEntry? after digest =
      if after.isDirectory (cache.directory digest) then some ⟨response, version⟩ else none := by
  have kept : cache.readArtifact? after digest Cache.resultName =
      if after.isDirectory (cache.directory digest) then some (responseArtifact response version)
      else none := by
    rw [← decode_written room]
    exact read_kept done
  split
  · rename_i there
    rw [if_pos there] at kept
    have read := response_reads fits []
    rw [List.append_nil] at read
    exact entry_of_artifact kept read
  · rename_i lost
    rw [if_neg lost] at kept
    rw [Cache.getEntry?, kept]
    rfl

theorem put_entry_found {response : Response} {version : String} (fits : ResponseFits response)
    (room : HeaderFits (responseArtifact response version))
    (unlinked : Unlinked w.files w.here (cache.file digest Cache.resultName))
    (done : cache.put digest response version w = .ok () after) :
    cache.getEntry? after digest = some ⟨response, version⟩ := by
  rw [put_entry fits room done, if_pos (directory_kept unlinked done)]

/-- From a file whose length field or header was overwritten nothing but the artifact is read
exactly if the damage is harmless, and then its version is the only one that is ever found. Where
the length field is left alone no other payload is read, and damage to the checksum alone is
harmless. -/
theorem header_damage_harmless_iff (cache : Cache) (digest : Digest) (fits : HeaderFits artifact)
    (overwritten : Overwritten artifact content) (tells : ChecksumTells artifact content)
    (read : w.read (cache.file digest Cache.resultName) = .ok content) :
    ((cache.readArtifact? w digest Cache.resultName = none ∨
        cache.readArtifact? w digest Cache.resultName = some artifact) ↔
      Harmless artifact content) ∧
      (Harmless artifact content → ∀ entry, cache.getEntry? w digest = some entry →
        entry.compilerVersion = artifact.compilerVersion) ∧
      (content.take 4 = (front artifact).take 4 →
        (∀ found, cache.readArtifact? w digest Cache.resultName = some found →
            found.payload = artifact.payload) ∧
          (untilChecksum artifact <+: content.drop 4 → Harmless artifact content)) := by
  have read' := read_artifact_of_read read
  refine ⟨by rw [read']; exact decode_harmless_iff tells, fun harmless entry found => ?_,
    fun length => ⟨fun found taken => ?_, checksum_harmless fits overwritten length⟩⟩
  · obtain ⟨payload, kept⟩ := artifact_of_entry found
    rcases (decode_harmless_iff tells).mpr harmless with missed | same
    · rw [read', missed] at kept
      cases kept
    · rw [read', same] at kept
      rw [Option.some.inj kept]
  · rw [read'] at taken
    obtain ⟨header, parts, -⟩ := decode_iff.mp taken
    exact payload_kept fits overwritten length parts

end Files

section Examples

/-- The workspace of two names with a file in the place of the result of a digest. -/
def holding (digest : Digest) (content : Bytes) : Workspace :=
  { twoNames with
    files := (twoNames.files.set ["c", digest.toHex] .directory).set
      (artifactPlace ["c"] digest Cache.resultName) (.file content false) }

theorem holding_filled (digest : Digest) (content : Bytes) :
    Filled ["c"] digest content twoNames (holding digest content) := by
  have inner := artifact_inner ["c"] digest Cache.resultName
  have held : ∀ location, (holding digest content).files.get? location =
      if location = artifactPlace ["c"] digest Cache.resultName then some (.file content false)
      else if location = ["c", digest.toHex] then some .directory
      else twoNames.files.get? location := by
    intro location
    rw [holding, get?_set _ _ _ _ inner, get?_set _ _ _ _ (by simp)]
  refine ⟨rfl, ?_, ?_, fun location outside => ?_⟩
  · rw [held, if_neg (by simp [artifactPlace])]
    exact if_pos rfl
  · rw [held, if_pos rfl]
  · rw [held, if_neg, if_neg]
    · rintro rfl
      exact outside List.prefix_rfl
    · rintro rfl
      exact outside ⟨[Cache.resultName], by simp [artifactPlace]⟩

theorem holding_read (digest : Digest) (content : Bytes) :
    (holding digest content).read (smallCache.file digest Cache.resultName) = .ok content :=
  read_of_filled (rooted_of_filled two_names_rooted (two_names_new digest)
    (holding_filled digest content)) small_roomy (holding_filled digest content)

/-- The response for a source without contracts. -/
def noObjects : Response := ⟨[], "", "0.4.6", ""⟩

/-- Its artifact. -/
def noObjectsArtifact : Artifact := responseArtifact noObjects "0.4.6"

theorem no_objects_fits : HeaderFits noObjectsArtifact ∧ ResponseFits noObjects := by decide +kernel

/-- The response for a source with one contract. -/
def oneObject : Response := ⟨[⟨"A", "60", "[]"⟩], "", "0.4.6", ""⟩

/-- An artifact file with zeros in the place of the checksum. -/
def withoutChecksum (artifact : Artifact) : Bytes :=
  Bytes.littleEndian 4 (Artifact.Header.ofArtifact artifact).encode.length ++
    (untilChecksum artifact ++
      List.replicate (number (Xxh3.checksum artifact.payload)).length 0) ++ artifact.payload

theorem without_checksum_overwritten (artifact : Artifact) :
    Overwritten artifact (withoutChecksum artifact) ∧
      (withoutChecksum artifact).take 4 = (front artifact).take 4 ∧
      untilChecksum artifact <+: (withoutChecksum artifact).drop 4 := by
  refine ⟨⟨_, ?_, rfl⟩, ?_, ?_⟩
  · simp [front, untilChecksum, Artifact.Header.encode, Artifact.Header.ofArtifact]
  · simp [withoutChecksum, front]
  · simp [withoutChecksum]

/-- Zeros in the place of the checksum are harmless. -/
theorem zeros_harmless :
    Harmless noObjectsArtifact (withoutChecksum noObjectsArtifact) ∧
      (smallCache.readArtifact? (holding emptyRequest.digest (withoutChecksum noObjectsArtifact))
          emptyRequest.digest Cache.resultName = none ∨
        smallCache.readArtifact? (holding emptyRequest.digest (withoutChecksum noObjectsArtifact))
          emptyRequest.digest Cache.resultName = some noObjectsArtifact) := by
  obtain ⟨overwritten, length, spared⟩ := without_checksum_overwritten noObjectsArtifact
  have room := no_objects_fits.1
  have tells : ChecksumTells noObjectsArtifact (withoutChecksum noObjectsArtifact) :=
    fun header payload parts _ => payload_kept room overwritten length parts
  obtain ⟨exactly, -, alone⟩ := header_damage_harmless_iff smallCache emptyRequest.digest room
    overwritten tells (holding_read emptyRequest.digest _)
  have harmless := (alone length).2 spared
  exact ⟨harmless, exactly.mpr harmless⟩

/-- One digit of the version overwritten, in a file of a response that was put under `0.4.6`: the
file is read as an artifact of `0.5.6`, and that is the version of the entry that is found. -/
theorem other_digit_served :
    Overwritten noObjectsArtifact (responseArtifact noObjects "0.5.6").encode ∧
      ChecksumTells noObjectsArtifact (responseArtifact noObjects "0.5.6").encode ∧
      smallCache.readArtifact?
          (holding emptyRequest.digest (responseArtifact noObjects "0.5.6").encode)
          emptyRequest.digest Cache.resultName = some (responseArtifact noObjects "0.5.6") ∧
      smallCache.getEntry?
          (holding emptyRequest.digest (responseArtifact noObjects "0.5.6").encode)
          emptyRequest.digest = some ⟨noObjects, "0.5.6"⟩ ∧
      responseArtifact noObjects "0.5.6" ≠ noObjectsArtifact := by
  obtain ⟨room, fits⟩ := no_objects_fits
  have long : (Codec.text "0.5.6").length = (Codec.text noObjectsArtifact.compilerVersion).length := by
    decide +kernel
  obtain ⟨overwritten, served⟩ := other_version_read long room
  have room' : HeaderFits (responseArtifact noObjects "0.5.6") := by decide +kernel
  have kept : smallCache.readArtifact?
      (holding emptyRequest.digest (responseArtifact noObjects "0.5.6").encode)
      emptyRequest.digest Cache.resultName = some (responseArtifact noObjects "0.5.6") := by
    rw [read_artifact_of_read (holding_read _ _)]
    exact served
  have read := response_reads fits []
  rw [List.append_nil] at read
  refine ⟨overwritten, fun header payload parts _ => ?_, kept, entry_of_artifact kept read,
    by decide⟩
  rw [encode_eq, parts_front room'] at parts
  exact (Prod.mk.inj (Option.some.inj parts)).2.symm

end Examples

end ContractBuild.ArtifactFile
