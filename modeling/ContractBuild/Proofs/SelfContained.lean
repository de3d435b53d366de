import ContractBuild.Proofs.RewrittenScan
import ContractBuild.Proofs.WrittenImports

/-! Bundles are self-contained. The texts of a bundle can be scanned again as its sources were, and
each import that is found then is the name of a file of the bundle. -/
namespace ContractBuild.SelfContained
open ByteForms FileTree ImportTargets Resolution RespelledCells RewrittenScan Shading Source
open SourceReach WalkCalls WrittenImports

/-- The paths of a text's imports are of letters, digits and a few marks. -/
def PlainPaths (text : List Char) : Prop :=
  ∀ directive ∈ Import.scan text, ∀ c ∈ directive.path.toList, isPlain c = true

/-- A digit of a name. -/
def IsDigit (c : Char) : Prop := '0' ≤ c ∧ c ≤ '9' ∨ 'a' ≤ c ∧ c ≤ 'f'

instance (c : Char) : Decidable (IsDigit c) :=
  inferInstanceAs (Decidable ('0' ≤ c ∧ c ≤ '9' ∨ 'a' ≤ c ∧ c ≤ 'f'))

/-- The form of the names in a bundle: sixty-four lowercase hexadecimal digits and the extension. -/
def IsKey (key : String) : Prop :=
  ∃ digits : List Char, digits.length = 64 ∧ (∀ c ∈ digits, IsDigit c) ∧
    key.toList = digits ++ ['.', 's', 'o', 'l']

/-- A text whose imports have been given keys as their paths, one after the other. -/
def assign (text : List Char) (keys : List String) : List Char :=
  replaceSpans text (((Import.scan text).map Import.span).zip (keys.map String.toList))

section Keys

private theorem plain_digit {c : Char} (digit : IsDigit c) : isPlain c = true ∧ c ≠ '/' := by
  constructor
  · rcases digit with ⟨low, high⟩ | ⟨low, high⟩
    · simp [isPlain, low, high]
    · have above : c ≤ 'z' := Char.le_trans high (by decide)
      simp [isPlain, low, above]
  · rintro rfl
    rcases digit with ⟨low, -⟩ | ⟨low, -⟩ <;> exact absurd low (by decide)

/-- A key is plain and has no slashes. -/
theorem plain_key {key : String} (isKey : IsKey key) :
    (∀ c ∈ key.toList, isPlain c = true) ∧ '/' ∉ key.toList := by
  obtain ⟨digits, -, all, form⟩ := isKey
  rw [form]
  constructor
  · intro c inside
    rcases List.mem_append.mp inside with digit | rest
    · exact (plain_digit (all c digit)).1
    · have extension : ['.', 's', 'o', 'l'].all isPlain = true := by decide
      exact List.all_eq_true.mp extension c rest
  · intro inside
    rcases List.mem_append.mp inside with digit | rest
    · exact (plain_digit (all _ digit)).2 rfl
    · exact absurd rest (by decide)

theorem key_of_digest (digest : Digest) (language : Language) :
    IsKey (digest.fileName language) := by
  refine ⟨Text.hex digest.bytes, ?_, ?_, ?_⟩
  · rw [length_hex, digest.length_eq]
  · intro c inside
    have digits : ∀ n < 16, IsDigit (Text.hexDigit n) := by decide
    obtain ⟨byte, -, among⟩ := List.mem_flatMap.mp inside
    have below := byte.toNat_lt
    rcases List.mem_cons.mp among with rfl | among
    · exact digits _ (by omega)
    · obtain rfl := List.mem_singleton.mp among
      exact digits _ (by omega)
  · cases language
    simp only [Digest.fileName, Digest.toHex, Language.extension, String.toList_append,
      String.toList_ofList, List.append_assoc]
    rfl

end Keys

/-- Rewriting commutes with scanning. -/
theorem scan_assign {text : List Char} {keys : List String} (plain : PlainPaths text)
    (count : keys.length = (Import.scan text).length) (fit : ∀ key ∈ keys, IsKey key) :
    (Import.scan (assign text keys)).map Import.path = keys := by
  have shaded : Import.scan text = Import.scanCells none (shade .code 0 text none) := by
    rw [Import.scan, cells_eq_shade]
  unfold PlainPaths at plain
  rw [shaded] at plain count
  obtain ⟨-, pieces, respelled, -, new⟩ := @respelling_exists .code trivial 0 0 text none
    (keys.map String.toList) plain (by rw [List.length_map, count]) (by
      intro name inside
      obtain ⟨key, among, rfl⟩ := List.mem_map.mp inside
      exact plain_key (fit key among))
  have same := scan_respelled respelled
  rw [new, replacements] at same
  rw [Import.scan, cells_eq_shade, assign, replaceSpans, shaded, same]
  simp

section Bundles
variable {search : Search} {entry : Path} {bundle : Bundle}

/-- What the imports in a bundle are: the names of what they lead to, if their paths were plain. -/
theorem scan_rewritten {importer : Path} {text : List Char} (plain : PlainPaths text)
    (located : ∀ directive ∈ Import.scan text, ∃ target, led? search importer directive = some target)
    {directive : Import}
    (listed : directive ∈ Import.scan (rewrittenAt search importer text).toList) :
    ∃ original ∈ Import.scan text, ∃ target, led? search importer original = some target ∧
      directive.path = nameOf search target := by
  let keyFor (original : Import) : String :=
    ((led? search importer original).map (nameOf search)).getD ""
  have written : (Import.scan text).map (writtenFor search importer) =
      ((Import.scan text).map Import.span).zip
        (((Import.scan text).map keyFor).map String.toList) := by
    rw [List.map_map, List.zip_map']
    rfl
  have keys : ∀ original ∈ Import.scan text, ∃ target,
      led? search importer original = some target ∧ keyFor original = nameOf search target := by
    intro original listed
    obtain ⟨target, led⟩ := located original listed
    exact ⟨target, led, by simp [keyFor, led]⟩
  rw [rewrittenAt, String.toList_ofList, written] at listed
  have paths := scan_assign plain (by simp) (fun key inside => by
    obtain ⟨original, listed, rfl⟩ := List.mem_map.mp inside
    obtain ⟨target, led, same⟩ := keys original listed
    obtain ⟨location, found⟩ := located_file led
    obtain ⟨content, executable, looked⟩ := file_from_iff.mp found
    rw [same, name_of_lookup looked]
    exact key_of_digest _ _ : ∀ key ∈ (Import.scan text).map keyFor, IsKey key)
  have inside : directive.path ∈ (Import.scan text).map keyFor := by
    rw [← paths]
    exact List.mem_map_of_mem listed
  obtain ⟨original, listed', same⟩ := List.mem_map.mp inside
  obtain ⟨target, led, key⟩ := keys original listed'
  exact ⟨original, listed', target, led, same.symm.trans key⟩

/-- Every import in a bundle is the name of a file in it, if the paths of all imports were plain. -/
theorem imports_held (resolved : resolve search entry = .ok bundle)
    (plain : ∀ path text, Meets search entry path → textOf? search path = some text →
      PlainPaths text) {key : String} {file : IncludedFile}
    (held : bundle.includes.get? key = some file) {directive : Import}
    (listed : directive ∈ Import.scan file.script.toList) :
    ∃ target, bundle.includes.get? directive.path = some target := by
  have accounts := accounts_of_resolve resolved
  obtain ⟨call, location, text, made, enters, -, script⟩ := accounts.included key file held
  obtain ⟨located, -⟩ := accounts.written call location text made enters
  rw [script] at listed
  obtain ⟨original, listed', target, led, path⟩ :=
    scan_rewritten (plain _ _ ⟨call.walk, made⟩ enters.read) located listed
  obtain ⟨walk, met⟩ := accounts.met call location text original target made enters listed' led
  -- What the import leads to has been entered, maybe by another path.
  obtain ⟨there, inner, text', found, made', enters'⟩ := accounts.entered _ met
  obtain ⟨-, file', held', -⟩ := accounts.written inner there text' made' enters'
  refine ⟨file', ?_⟩
  rw [path, name_at_location found, ← name_at_location enters'.found, held']

end Bundles

/-- Rewriting commutes with scanning: when keys take the places of plain paths, the new text has just
these keys as the paths of its imports, in order. So bundles are self-contained: where all paths were
plain, each import in a bundle is the name of a file in it. -/
theorem self_contained :
    (∀ text keys, PlainPaths text → keys.length = (Import.scan text).length →
      (∀ key ∈ keys, IsKey key) → (Import.scan (assign text keys)).map Import.path = keys) ∧
    ∀ search entry bundle, resolve search entry = .ok bundle →
      (∀ path text, Meets search entry path → textOf? search path = some text →
        PlainPaths text) →
      ∀ key file, bundle.includes.get? key = some file →
        ∀ directive ∈ Import.scan file.script.toList,
          ∃ target, bundle.includes.get? directive.path = some target :=
  ⟨fun _ _ plain count fit => scan_assign plain count fit,
    fun _ _ _ resolved plain _ _ held _ listed => imports_held resolved plain held listed⟩

section Examples

private theorem cyclic_plain : PlainPaths cyclicText := by
  intro directive listed
  have path : directive.path = "././Main.sol" := cyclic_import.2 _ _ cyclic_read listed
  rw [path]
  exact List.all_eq_true.mp (by decide)

/-- There is no other file. -/
private theorem cyclic_text {path : Path} {text : List Char}
    (read : textOf? cyclicSearch path = some text) : text = cyclicText := by
  obtain ⟨content, held, decoded⟩ := Option.bind_eq_some_iff.mp read
  obtain ⟨location, executable, looked⟩ := lookup_of_content held
  have there := get?_of_lookup looked
  unfold get? cyclicSearch at there
  split at there
  · cases there
  · by_cases first : ["a"] = location
    · simp [first] at there
    · by_cases second : ["Main.sol"] = location
      · obtain ⟨same, -⟩ : Text.utf8 cyclicText = content ∧ false = executable := by
          simpa [first, second] using there
        rw [← same, of_utf8_utf8] at decoded
        exact (Option.some.inj decoded).symm
      · simp [first, second] at there

/-- A file that imports itself is held by its own bundle, under the name that it imports. -/
theorem cyclic_bundle_self_contained :
    (Import.scan (assign cyclicText [nameAt cyclicSearch ["Main.sol"]])).map Import.path =
      [nameAt cyclicSearch ["Main.sol"]] ∧
    ∃ bundle, resolve cyclicSearch ⟨"Main.sol"⟩ = .ok bundle ∧
      ∀ key file, bundle.includes.get? key = some file →
        ∀ directive ∈ Import.scan file.script.toList,
          ∃ target, bundle.includes.get? directive.path = some target := by
  obtain ⟨directive, imports⟩ := cyclic_import.1
  constructor
  · refine self_contained.1 cyclicText _ cyclic_plain (by rw [imports]; rfl) ?_
    simp only [List.mem_singleton, forall_eq]
    exact key_of_digest _ _
  · have found := cyclic_file ⟨"Main.sol"⟩ (by decide) ⟨[], by decide, by decide⟩
    obtain ⟨bundle, resolved⟩ :=
      (resolves_iff_resolvable cyclic_linkless cyclic_short found).mpr cyclic_resolvable
    refine ⟨bundle, resolved, self_contained.2 _ _ bundle resolved ?_⟩
    intro path text met read
    rw [cyclic_text read]
    exact cyclic_plain

end Examples

end ContractBuild.SelfContained
