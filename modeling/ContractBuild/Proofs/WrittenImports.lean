import ContractBuild.Proofs.WalkCalls

/-! Whether a bundle is right about the imports it holds. A file is entered once, from the path that
it is met by first, and its imports are written as they lead on from there. Met again by another
path it is not looked at again. So a bundle is right about every path that was met exactly if the
paths by which a file was met lead on to the same contents, and then files of one content that lead
on to different contents are a conflict. A link can make one file lead on in two ways. -/
namespace ContractBuild.WrittenImports
open ByteForms FileTree ImportTargets PathPieces PathWalk Resolution Source SourceReach WalkCalls

section Statements
variable (search : Search) (entry : Path)

/-- A path is met: a call is made for it when the entry file is resolved. -/
def Meets (path : Path) : Prop := ∃ walk, Makes search entry ⟨walk, path⟩

/-- The name of the content that an import leads to from a path. -/
def brought? (path : Path) (directive : Import) : Option String :=
  (led? search path directive).map (nameOf search)

/-- Whatever path a file is met by, its imports lead on to the same contents. -/
def LeadsAlike : Prop :=
  ∀ path path' location text directive, Meets search entry path → Meets search entry path' →
    fileFrom? search.files search.here path = some location →
    fileFrom? search.files search.here path' = some location →
    textOf? search path = some text → directive ∈ Import.scan text →
    brought? search path directive = brought? search path' directive

/-- A bundle is right about a path: it is that of a text, each of its imports leads to a file from
there, and under the name of the content stands that text with the names of just these files. -/
structure RightAbout (bundle : Bundle) (path : Path) (text : List Char) (file : IncludedFile) :
    Prop where
  read : textOf? search path = some text
  located : ∀ directive ∈ Import.scan text, ∃ target, led? search path directive = some target
  held : bundle.includes.get? (nameOf search path) = some file
  script : file.script = rewrittenAt search path text

end Statements

section Texts

/-- New texts that are put in the place of the same spans can be read off the result, if those for
one span are equally long. -/
theorem new_texts_of_replaced {α : Type} {first second : α → Span × List Char}
    (spans : ∀ item, (first item).1 = (second item).1) (items : List α)
    (lengths : ∀ item ∈ items, (first item).2.length = (second item).2.length) (offset : Nat)
    (text : List Char)
    (same : replaceSpansFrom offset text (items.map first) =
      replaceSpansFrom offset text (items.map second)) :
    ∀ item ∈ items, (first item).2 = (second item).2 := by
  induction items generalizing offset text with
  | nil => simp
  | cons item items ih =>
    simp only [List.map_cons, replaceSpansFrom, spans, List.append_assoc] at same
    have rest := List.append_cancel_left same
    obtain ⟨own, rest⟩ := List.append_inj rest (lengths item (by simp))
    intro other inside
    rcases List.mem_cons.mp inside with rfl | inside
    · exact own
    · exact ih (fun item inside => lengths item (List.mem_cons_of_mem _ inside)) _ _ rest other
        inside

/-- All names are equally long. -/
theorem length_file_name (digest : Digest) (language : Language) :
    (digest.fileName language).toList.length = 65 + language.extension.toList.length := by
  simp only [Digest.fileName, Digest.toHex, String.toList_append, String.toList_ofList,
    List.length_append, length_hex, digest.length_eq]
  simp

end Texts

section Meeting
variable {search : Search} {entry path path' target : Path} {location : Location}
  {text : List Char} {directive : Import}

/-- A property of the entry that passes from each file that is met to what its imports lead to holds
for all paths that are met. -/
theorem meets_induction {P : Path → Prop} (start : P entry)
    (step : ∀ path text directive target, P path → textOf? search path = some text →
      directive ∈ Import.scan text → led? search path directive = some target → P target)
    (met : Meets search entry path) : P path := by
  obtain ⟨walk, made⟩ := met
  have holds : ∀ call, Makes search entry call → P call.path := by
    intro call made
    induction made with
    | refl => exact start
    | tail before calls ih =>
      obtain ⟨enters, whole, walked, led⟩ := calls
      exact step _ _ _ _ ih enters.read (by simp [whole]) led
  exact holds _ made

/-- An import that is written leads to one name only, which is of the length of all names. -/
theorem brought_of_led (led : led? search path directive = some target) :
    brought? search path directive = some (nameOf search target) ∧
      (writtenFor search path directive).2 = (nameOf search target).toList ∧
      (nameOf search target).toList.length = 65 + search.language.extension.toList.length := by
  obtain ⟨location, found⟩ := located_file led
  obtain ⟨content, executable, looked⟩ := file_from_iff.mp found
  refine ⟨by simp [brought?, led], by simp [writtenFor, led], ?_⟩
  rw [name_of_lookup looked, length_file_name]

/-- Rewritten texts tell what each import leads to. -/
theorem brought_of_rewritten
    (located : ∀ directive ∈ Import.scan text, ∃ target, led? search path directive = some target)
    (located' : ∀ directive ∈ Import.scan text, ∃ target, led? search path' directive = some target)
    (same : rewrittenAt search path text = rewrittenAt search path' text)
    (listed : directive ∈ Import.scan text) :
    brought? search path directive = brought? search path' directive := by
  have replaced : replaceSpansFrom 0 text ((Import.scan text).map (writtenFor search path)) =
      replaceSpansFrom 0 text ((Import.scan text).map (writtenFor search path')) :=
    String.ofList_inj.mp same
  have lengths : ∀ other ∈ Import.scan text, (writtenFor search path other).2.length =
      (writtenFor search path' other).2.length := by
    intro other listed
    obtain ⟨target, led⟩ := located other listed
    obtain ⟨target', led'⟩ := located' other listed
    obtain ⟨-, written, long⟩ := brought_of_led led
    obtain ⟨-, written', long'⟩ := brought_of_led led'
    rw [written, written', long, long']
  have spans : ∀ other,
      (writtenFor search path other).1 = (writtenFor search path' other).1 := fun _ => rfl
  have texts := new_texts_of_replaced spans _ lengths 0 text replaced directive listed
  obtain ⟨target, led⟩ := located directive listed
  obtain ⟨target', led'⟩ := located' directive listed
  obtain ⟨brought, written, -⟩ := brought_of_led led
  obtain ⟨brought', written', -⟩ := brought_of_led led'
  rw [written, written'] at texts
  rw [brought, brought', String.toList_inj.mp texts]

/-- Paths from which imports lead alike have one rewritten text. -/
theorem rewritten_of_brought (alike : ∀ directive ∈ Import.scan text,
      brought? search path directive = brought? search path' directive) :
    rewrittenAt search path text = rewrittenAt search path' text := by
  have written : (Import.scan text).map (writtenFor search path) =
      (Import.scan text).map (writtenFor search path') := by
    refine List.map_congr_left fun directive listed => ?_
    have same := alike directive listed
    unfold brought? at same
    rw [writtenFor, writtenFor, same]
  rw [rewrittenAt, rewrittenAt, written]

end Meeting

section Right
variable {search : Search} {entry path path' : Path} {bundle : Bundle} {text : List Char}
  {directive : Import}

/-- Where the paths of a file lead on alike, the bundle is right about each of them: it is right
about the one by which the file was entered. -/
theorem right_of_leads_alike (resolved : resolve search entry = .ok bundle)
    (alike : LeadsAlike search entry) (met : Meets search entry path) :
    ∃ text file, RightAbout search bundle path text file := by
  have accounts := accounts_of_resolve resolved
  obtain ⟨walk, made⟩ := met
  obtain ⟨location, inner, text, found, made', enters⟩ := accounts.entered _ made
  obtain ⟨located, file, held, script⟩ := accounts.written inner location text made' enters
  have content : contentOf? search path = contentOf? search inner.path := by
    rw [content_at_location found, content_at_location enters.found]
  have read : textOf? search path = some text := by
    rw [textOf?, content, ← textOf?, enters.read]
  have name : nameOf search path = nameOf search inner.path := by
    rw [nameOf, nameOf, content]
  have same : ∀ directive ∈ Import.scan text,
      brought? search path directive = brought? search inner.path directive :=
    fun directive listed => alike _ _ _ _ _ ⟨walk, made⟩ ⟨inner.walk, made'⟩ found enters.found
      read listed
  refine ⟨text, file, read, fun directive listed => ?_, by rw [name, held], ?_⟩
  · obtain ⟨target, led⟩ := located directive listed
    have brought := same directive listed
    rw [(brought_of_led led).1] at brought
    obtain ⟨target', led', -⟩ := Option.map_eq_some_iff.mp brought
    exact ⟨target', led'⟩
  · rw [script, rewritten_of_brought same]

/-- A bundle that is right about two paths of one content says that they lead on alike. -/
theorem brought_of_right {text' : List Char} {file file' : IncludedFile}
    (right : RightAbout search bundle path text file)
    (right' : RightAbout search bundle path' text' file')
    (content : contentOf? search path = contentOf? search path')
    (listed : directive ∈ Import.scan text) :
    brought? search path directive = brought? search path' directive := by
  obtain rfl : text = text' := by
    have read := right.read
    rw [textOf?, content, ← textOf?, right'.read] at read
    exact (Option.some.inj read).symm
  obtain rfl : file = file' := by
    have held := right.held
    rw [nameOf, content, ← nameOf, right'.held] at held
    exact (Option.some.inj held).symm
  exact brought_of_rewritten right.located right'.located (right.script.symm.trans right'.script)
    listed

theorem leads_alike_of_right
    (right : ∀ path, Meets search entry path → ∃ text file, RightAbout search bundle path text file) :
    LeadsAlike search entry := by
  intro path path' location text directive met met' found found' read listed
  obtain ⟨text', file, one⟩ := right path met
  obtain ⟨other, file', two⟩ := right path' met'
  obtain rfl := Option.some.inj (one.read.symm.trans read)
  refine brought_of_right one two ?_ listed
  rw [content_at_location found, content_at_location found']

/-- Without links the paths of a file lead on alike, as long as the system takes what is written. -/
theorem leads_alike_of_linkless (linkless : Linkless search.files)
    (short : ∀ path text directive, Meets search entry path → textOf? search path = some text →
      directive ∈ Import.scan text →
      Text.byteLength (besidePath path directive.path).text.toList ≤ maxPathBytes) :
    LeadsAlike search entry := by
  intro path path' location text directive met met' found found' read listed
  have read' : textOf? search path' = some text := by
    rw [textOf?, content_at_location found', ← content_at_location found, ← textOf?, read]
  have own : ∀ other, Meets search entry other → textOf? search other = some text →
      fileFrom? search.files search.here other = some location →
      brought? search other directive =
        (target? search location directive.path).map (nameAt search) := by
    intro other met read found
    rw [target_eq_located directive.path linkless found (short other text directive met read listed)]
    unfold brought?
    change _ = ((led? search other directive).bind _).map _
    cases led : led? search other directive with
    | none => rfl
    | some target =>
      obtain ⟨there, file⟩ := located_file led
      simp [file, name_at_location file]
  rw [own path met read found, own path' met' read' found']

/-- A bundle is right about every path that was met exactly if the paths of each file lead on alike.
Where they do, two paths of one content that lead on to different contents never resolve, and are a
conflict unless some file that is met is broken. -/
theorem right_iff_leads_alike :
    (∀ bundle, resolve search entry = .ok bundle →
      ((∀ path, Meets search entry path →
          ∃ text file, RightAbout search bundle path text file) ↔ LeadsAlike search entry)) ∧
    ∀ path path' text directive target target', LeadsAlike search entry →
      Meets search entry path → Meets search entry path' →
      contentOf? search path = contentOf? search path' → textOf? search path = some text →
      directive ∈ Import.scan text → led? search path directive = some target →
      led? search path' directive = some target' → nameOf search target ≠ nameOf search target' →
      (∀ bundle, resolve search entry ≠ .ok bundle) ∧
        ((∀ path, Meets search entry path → ¬ Broken search path) →
          ∃ key first second, resolve search entry = .error (.conflict key first second)) := by
  refine ⟨fun bundle resolved => ⟨leads_alike_of_right, fun alike path met =>
    right_of_leads_alike resolved alike met⟩, ?_⟩
  intro path path' text directive target target' alike met met' content read listed led led' apart
  have never : ∀ bundle, resolve search entry ≠ .ok bundle := by
    intro bundle resolved
    obtain ⟨text', file, right⟩ := right_of_leads_alike resolved alike met
    obtain ⟨other, file', right'⟩ := right_of_leads_alike resolved alike met'
    obtain rfl := Option.some.inj (right.read.symm.trans read)
    have same := brought_of_right right right' content listed
    rw [(brought_of_led led).1, (brought_of_led led').1] at same
    exact apart (Option.some.inj same)
  refine ⟨never, fun sound => ?_⟩
  cases failed : resolve search entry with
  | ok bundle => exact absurd failed (never bundle)
  | error error =>
    rcases resolve_error failed with ⟨key, first, second, rfl⟩ | ⟨call, made, broken⟩
    · exact ⟨key, first, second, rfl⟩
    · exact absurd broken (sound call.path ⟨call.walk, made⟩)

end Right

section Entering
variable {search : Search} {root : Option Location} {walk : Walk} {path : Path}
  {location : Location} {content : Bytes} {executable : Bool} {text : List Char} {key : String}

/-- A new file is added to the bundle if its imports can be visited and its name is free. -/
theorem visit_adds
    {onward : Onward search.files (walk.visit location key) (List (Span × List Char))}
    (looked : search.files.lookup search.here path = .ok (location, .file content executable))
    (named : nameOf search path = key) (new : walk.keyOf? location = none)
    (decoded : Text.ofUtf8? content = some text)
    (walked : visitImports search root (walk.visit location key) path (Import.scan text) =
      .ok onward)
    (free : onward.reached.includes.get? key = none) :
    ∃ left, visit search root walk path = .ok left ∧
      (∀ other, left.reached.keyOf? other = onward.reached.keyOf? other) ∧
      ∃ file, ∀ other, left.reached.includes.get? other =
        if other = key then some file else onward.reached.includes.get? other := by
  rw [visit_file looked new decoded ((name_of_lookup looked).symm.trans named), walked]
  simp only [free]
  exact ⟨_, rfl, fun _ => rfl, _, fun other => get_insert ..⟩

/-- Imports are visited if the first one leads to a file that is, and then the others are. -/
theorem visit_imports_of {importer target : Path} {directive : Import} {imports : List Import}
    {onward : Onward search.files walk String}
    {rest : Onward search.files onward.reached (List (Span × List Char))}
    (led : led? search importer directive = some target)
    (visited : visit search root walk target = .ok onward)
    (walked : visitImports search root onward.reached importer imports = .ok rest) :
    ∃ done, visitImports search root walk importer (directive :: imports) = .ok done ∧
      done.reached = rest.reached :=
  ⟨_, visit_imports_done led visited walked, rfl⟩

theorem resolve_of_visit {entry : Path} {onward : Onward search.files Walk.start String}
    (visited : visit search (rootOf search entry) Walk.start entry = .ok onward) :
    resolve search entry =
      .ok ⟨onward.value, onward.reached.includes, onward.reached.names⟩ := by
  unfold rootOf at visited
  simp only [resolve_eq, visited]

end Entering

section Examples

/-- Imports a file by two paths. -/
def mainText : List Char := "import \"./real/Shim.sol\";\nimport \"./alias/Shim.sol\";".toList

/-- Imports what lies beside it. -/
def shimText : List Char := "import \"./Dep.sol\";".toList

def realText : List Char := "contract A \x7b\x7d".toList

def aliasText : List Char := "contract B \x7b\x7d".toList

/-- A search with two directories that have a file `Dep.sol` each. What `Shim.sol` is in the second
of them is left open. -/
def shims (other : Node) : Search where
  files := ⟨[(["real"], .directory), (["alias"], .directory),
    (["Main.sol"], .file (Text.utf8 mainText) false),
    (["real", "Shim.sol"], .file (Text.utf8 shimText) false), (["alias", "Shim.sol"], other),
    (["real", "Dep.sol"], .file (Text.utf8 realText) false),
    (["alias", "Dep.sol"], .file (Text.utf8 aliasText) false)]⟩
  here := []
  language := .solidity
  roots := []

/-- The shim of the second directory is a link to that of the first. -/
def linked : Search := shims (.link ⟨"../real/Shim.sol"⟩)

/-- The shim of the second directory is a copy of that of the first. -/
def copied : Search := shims (.file (Text.utf8 shimText) false)

section Paths
variable {other : Node} {path : Path} {directory name written : String} {content : Bytes}

private theorem shims_start (path : Path) :
    (if path.isAbsolute then [] else (shims other).here) = ([] : Location) := ite_self _

private theorem main_looked : (shims other).files.lookup (shims other).here ⟨"Main.sol"⟩ =
    .ok (["Main.sol"], .file (Text.utf8 mainText) false) := by
  have name : IsName "Main.sol" := by decide
  refine lookup_ok_iff.mpr ⟨by decide, ?_⟩
  rw [shims_start, show (Path.mk "Main.sol").pieces = ["Main.sol"] by decide,
    walk_found name (show _ = some (Node.file (Text.utf8 mainText) false) from rfl) (by simp), walk]
  rfl

/-- A path goes to a file in one of the directories, with idle steps before each name. -/
private theorem inside_looked (accepted : Accepted path)
    (pieces : ∃ before between, path.pieces = before ++ directory :: (between ++ [name]) ∧
      ∀ piece ∈ before ++ between, Path.isIdle piece = true)
    (outer : IsName directory) (inner : IsName name)
    (above : (shims other).files.get? [directory] = some .directory)
    (there : (shims other).files.get? [directory, name] = some (.file content false)) :
    (shims other).files.lookup (shims other).here path =
      .ok ([directory, name], .file content false) := by
  obtain ⟨before, between, pieces, idle⟩ := pieces
  refine lookup_ok_iff.mpr ⟨accepted, ?_⟩
  rw [shims_start, pieces, walk_past_idles fun piece inside => idle piece (by simp [inside]),
    walk_found outer (show _ = some Node.directory from above) (by simp),
    walk_past_idles fun piece inside => idle piece (by simp [inside]),
    walk_found inner (show _ = some (Node.file content false) from there) (by simp), walk]
  rfl

private theorem real_shim : (shims other).files.lookup (shims other).here ⟨"./real/Shim.sol"⟩ =
    .ok (["real", "Shim.sol"], .file (Text.utf8 shimText) false) :=
  inside_looked (by decide) ⟨["."], [], by decide, by decide⟩ (by decide) (by decide) rfl rfl

private theorem real_dep : (shims other).files.lookup (shims other).here ⟨"./real/./Dep.sol"⟩ =
    .ok (["real", "Dep.sol"], .file (Text.utf8 realText) false) :=
  inside_looked (by decide) ⟨["."], ["."], by decide, by decide⟩ (by decide) (by decide) rfl rfl

private theorem alias_dep : (shims other).files.lookup (shims other).here ⟨"./alias/./Dep.sol"⟩ =
    .ok (["alias", "Dep.sol"], .file (Text.utf8 aliasText) false) :=
  inside_looked (by decide) ⟨["."], ["."], by decide, by decide⟩ (by decide) (by decide) rfl rfl

private theorem copied_shim : copied.files.lookup copied.here ⟨"./alias/Shim.sol"⟩ =
    .ok (["alias", "Shim.sol"], .file (Text.utf8 shimText) false) :=
  inside_looked (by decide) ⟨["."], [], by decide, by decide⟩ (by decide) (by decide) rfl rfl

private theorem linked_shim : linked.files.lookup linked.here ⟨"./alias/Shim.sol"⟩ =
    .ok (["real", "Shim.sol"], .file (Text.utf8 shimText) false) := by
  have shim : IsName "Shim.sol" := by decide
  have outer : IsName "alias" := by decide
  have inner : IsName "real" := by decide
  have link : linked.files.get? (["alias"] ++ ["Shim.sol"]) =
      some (.link ⟨"../real/Shim.sol"⟩) := rfl
  have target : (Path.mk "../real/Shim.sol").pieces ++ [] = ["..", "real", "Shim.sol"] := by decide
  refine lookup_ok_iff.mpr ⟨by decide, ?_⟩
  rw [show (if (Path.mk "./alias/Shim.sol").isAbsolute then [] else linked.here) = ([] : Location)
      from shims_start _,
    show (Path.mk "./alias/Shim.sol").pieces = [".", "alias", "Shim.sol"] by decide,
    walk_idle (by decide), walk_found outer (show _ = some Node.directory from rfl) (by simp),
    List.nil_append, show maxLinks = 39 + 1 from rfl, walk_link shim link (Or.inr rfl), target,
    show (if (Path.mk "../real/Shim.sol").isAbsolute then [] else ["alias"]) =
      ["alias"] from rfl,
    walk_up, show (["alias"] : Location).dropLast = [] from rfl,
    walk_found inner (show _ = some Node.directory from rfl) (by simp),
    walk_found shim (show _ = some (Node.file (Text.utf8 shimText) false) from rfl) (by simp), walk]
  rfl

private theorem main_imports :
    (Import.scan mainText).map Import.path = ["./real/Shim.sol", "./alias/Shim.sol"] := by
  decide +kernel

private theorem shim_imports : (Import.scan shimText).map Import.path = ["./Dep.sol"] := by
  decide +kernel

private theorem dep_imports : Import.scan realText = [] ∧ Import.scan aliasText = [] := by
  decide +kernel

/-- The name of a source text. -/
def nameFor (text : List Char) : String :=
  (Digest.ofContent (Text.utf8 text)).fileName .solidity

private theorem names_apart :
    nameFor mainText ≠ nameFor shimText ∧ nameFor mainText ≠ nameFor realText ∧
      nameFor shimText ≠ nameFor realText ∧ nameFor realText ≠ nameFor aliasText := by
  decide +kernel

/-- An import leads to the file that is beside its importer. -/
private theorem led_beside {importer target : Path} {directive : Import} {location : Location}
    {executable : Bool} (path : directive.path = written)
    (relative : (Path.mk written).isAbsolute = false) (beside : besidePath importer written = target)
    (looked : (shims other).files.lookup (shims other).here target =
      .ok (location, .file content executable)) :
    led? (shims other) importer directive = some target := by
  have file : (shims other).files.isFile (shims other).here target = true := by
    rw [is_file_eq, file_from_iff.mpr ⟨content, executable, looked⟩]
    rfl
  unfold besidePath at beside
  simp [led?, Search.locate?, path, relative, beside, file]

/-- The imports of a text that has only one lead to the file that is beside its importer. -/
private theorem only_led {importer path : Path} {directive : Import} {text : List Char}
    {location : Location} {executable : Bool}
    (imports : (Import.scan text).map Import.path = [written])
    (relative : (Path.mk written).isAbsolute = false) (beside : besidePath importer written = path)
    (looked : (shims other).files.lookup (shims other).here path =
      .ok (location, .file content executable)) (listed : directive ∈ Import.scan text) :
    led? (shims other) importer directive = some path := by
  have own : directive.path = written := by
    have inside : directive.path ∈ (Import.scan text).map Import.path := List.mem_map_of_mem listed
    simpa [imports] using inside
  exact led_beside own relative beside looked

end Paths

section Visits
variable {other : Node} {root : Option Location} {walk : Walk}

private theorem main_named : nameOf (shims other) ⟨"Main.sol"⟩ = nameFor mainText :=
  name_of_lookup main_looked

private theorem shim_named : nameOf (shims other) ⟨"./real/Shim.sol"⟩ = nameFor shimText :=
  name_of_lookup real_shim

private theorem dep_named : nameOf (shims other) ⟨"./real/./Dep.sol"⟩ = nameFor realText :=
  name_of_lookup real_dep

private theorem main_read : textOf? (shims other) ⟨"Main.sol"⟩ = some mainText :=
  (text_of_lookup main_looked).trans (of_utf8_utf8 mainText)

private theorem shim_read : textOf? (shims other) ⟨"./real/Shim.sol"⟩ = some shimText :=
  (text_of_lookup real_shim).trans (of_utf8_utf8 shimText)

private theorem dep_read : textOf? (shims other) ⟨"./real/./Dep.sol"⟩ = some realText :=
  (text_of_lookup real_dep).trans (of_utf8_utf8 realText)

private theorem alias_dep_read : textOf? (shims other) ⟨"./alias/./Dep.sol"⟩ = some aliasText :=
  (text_of_lookup alias_dep).trans (of_utf8_utf8 aliasText)

private theorem copied_shim_read : textOf? copied ⟨"./alias/Shim.sol"⟩ = some shimText :=
  (text_of_lookup copied_shim).trans (of_utf8_utf8 shimText)

/-- The first shim is visited with what lies beside it. -/
private theorem shim_visit (new : walk.keyOf? ["real", "Shim.sol"] = none)
    (new' : walk.keyOf? ["real", "Dep.sol"] = none)
    (empty : ∀ key, walk.includes.get? key = none) :
    ∃ left, visit (shims other) root walk ⟨"./real/Shim.sol"⟩ = .ok left ∧
      left.reached.keyOf? ["real", "Shim.sol"] = some (nameFor shimText) ∧
      left.reached.includes.get? (nameFor mainText) = none := by
  obtain ⟨main_shim, main_real, shim_real, -⟩ := names_apart
  obtain ⟨directive, imports, path⟩ := List.map_eq_singleton_iff.mp shim_imports
  have led : led? (shims other) ⟨"./real/Shim.sol"⟩ directive = some ⟨"./real/./Dep.sol"⟩ :=
    led_beside path (by decide) (by decide) real_dep
  let entered := walk.visit ["real", "Shim.sol"] (nameFor shimText)
  have fresh : entered.keyOf? ["real", "Dep.sol"] = none := by
    rw [key_of_visit, if_neg (by decide)]
    exact new'
  -- What lies beside it has no imports, and enters first.
  have nothing : visitImports (shims other) root
      (entered.visit ["real", "Dep.sol"] (nameFor realText))
      ⟨"./real/./Dep.sol"⟩ (Import.scan realText) = .ok ⟨[], _, Nat.le_refl _⟩ := by
    rw [dep_imports.1, visit_imports_nil]
  obtain ⟨dep, visits, seen, file, includes⟩ :=
    visit_adds real_dep dep_named fresh (of_utf8_utf8 realText) nothing (empty _)
  obtain ⟨done, walked, same⟩ := visit_imports_of led visits visit_imports_nil
  rw [← imports] at walked
  have includes : ∀ key, done.reached.includes.get? key =
      if key = nameFor realText then some file else none := by
    intro key
    rw [same, includes]
    exact if_congr Iff.rfl rfl (empty key)
  obtain ⟨left, visits, seen', file', includes'⟩ :=
    visit_adds real_shim shim_named new (of_utf8_utf8 shimText) walked
      (by rw [includes, if_neg shim_real])
  refine ⟨left, visits, ?_, ?_⟩
  · rw [seen', same, seen, key_of_visit, if_neg (by decide), key_of_visit, if_pos rfl]
  · rw [includes', if_neg main_shim, includes, if_neg main_real]

private theorem main_enters :
    Enters (shims other) (entryCall ⟨"Main.sol"⟩) ["Main.sol"] mainText where
  found := file_from_iff.mpr ⟨_, _, main_looked⟩
  new := rfl
  read := main_read

/-- The imports of the entry: the first one is visited, and then the second one is met. -/
private theorem main_meets {location : Location} {content : Bytes} {executable : Bool}
    (looked : (shims other).files.lookup (shims other).here ⟨"./alias/Shim.sol"⟩ =
      .ok (location, .file content executable)) :
    Meets (shims other) ⟨"Main.sol"⟩ ⟨"./real/Shim.sol"⟩ ∧
    Meets (shims other) ⟨"Main.sol"⟩ ⟨"./alias/Shim.sol"⟩ ∧
    ∃ first second left, Import.scan mainText = [first, second] ∧
      led? (shims other) ⟨"Main.sol"⟩ first = some ⟨"./real/Shim.sol"⟩ ∧
      led? (shims other) ⟨"Main.sol"⟩ second = some ⟨"./alias/Shim.sol"⟩ ∧
      visit (shims other) (rootOf (shims other) ⟨"Main.sol"⟩)
        (Walk.start.visit ["Main.sol"] (nameFor mainText)) ⟨"./real/Shim.sol"⟩ = .ok left ∧
      left.reached.keyOf? ["real", "Shim.sol"] = some (nameFor shimText) ∧
      left.reached.includes.get? (nameFor mainText) = none := by
  obtain ⟨first, rest, imports, path, others⟩ := List.map_eq_cons_iff.mp main_imports
  obtain ⟨second, rfl, path'⟩ := List.map_eq_singleton_iff.mp others
  have led : led? (shims other) ⟨"Main.sol"⟩ first = some ⟨"./real/Shim.sol"⟩ :=
    led_beside path (by decide) (by decide) real_shim
  have led' : led? (shims other) ⟨"Main.sol"⟩ second = some ⟨"./alias/Shim.sol"⟩ :=
    led_beside path' (by decide) (by decide) looked
  obtain ⟨left, visits, seen, free⟩ := @shim_visit other (rootOf (shims other) ⟨"Main.sol"⟩)
    (Walk.start.visit ["Main.sol"] (nameFor mainText)) rfl rfl fun _ => rfl
  have inside : (entryCall ⟨"Main.sol"⟩).inside (shims other) ["Main.sol"] =
      Walk.start.visit ["Main.sol"] (nameFor mainText) := by
    rw [Call.inside, entryCall, main_named]
  refine ⟨?_, ?_, first, second, left, imports, led, led', visits, seen, free⟩
  · have nothing := @visit_imports_nil (shims other) (rootOf (shims other) ⟨"Main.sol"⟩)
      ((entryCall ⟨"Main.sol"⟩).inside (shims other) ["Main.sol"]) ⟨"Main.sol"⟩
    have split : Import.scan mainText = [] ++ first :: [second] := imports
    exact ⟨_, .single (.intro main_enters split nothing led)⟩
  · obtain ⟨done, walked, -⟩ := visit_imports_of led visits visit_imports_nil
    have split : Import.scan mainText = [first] ++ second :: [] := imports
    have walked : ∃ done, visitImports (shims other) (rootOf (shims other) ⟨"Main.sol"⟩)
        ((entryCall ⟨"Main.sol"⟩).inside (shims other) ["Main.sol"]) ⟨"Main.sol"⟩ [first] =
          .ok done := by
      rw [inside]
      exact ⟨done, walked⟩
    obtain ⟨done, walked⟩ := walked
    exact ⟨_, .single (.intro main_enters split walked led')⟩

/-- What is met from the first shim on. -/
private theorem real_met {path : Path} (met : Meets (shims other) ⟨"./real/Shim.sol"⟩ path) :
    path = ⟨"./real/Shim.sol"⟩ ∨ path = ⟨"./real/./Dep.sol"⟩ := by
  refine meets_induction (P := fun path => path = ⟨"./real/Shim.sol"⟩ ∨ path = ⟨"./real/./Dep.sol"⟩)
    (Or.inl rfl) ?_ met
  rintro path text directive target (rfl | rfl) read listed led
  · obtain rfl := Option.some.inj (shim_read.symm.trans read)
    exact Or.inr (Option.some.inj (led.symm.trans
      (only_led shim_imports (by decide) (by decide) real_dep listed)))
  · obtain rfl := Option.some.inj (dep_read.symm.trans read)
    simp [dep_imports.1] at listed

/-- The paths that can be met where one shim is a copy of the other, with the texts and the places
that they lead to. -/
def copiedPlaces : List (Path × List Char × Location) :=
  [(⟨"Main.sol"⟩, mainText, ["Main.sol"]), (⟨"./real/Shim.sol"⟩, shimText, ["real", "Shim.sol"]),
    (⟨"./alias/Shim.sol"⟩, shimText, ["alias", "Shim.sol"]),
    (⟨"./real/./Dep.sol"⟩, realText, ["real", "Dep.sol"]),
    (⟨"./alias/./Dep.sol"⟩, aliasText, ["alias", "Dep.sol"])]

private theorem copied_places : ∀ place ∈ copiedPlaces,
    textOf? copied place.1 = some place.2.1 ∧
    fileFrom? copied.files copied.here place.1 = some place.2.2 ∧
    ∀ directive ∈ Import.scan place.2.1, ∃ next ∈ copiedPlaces.map Prod.fst,
      led? copied place.1 directive = some next := by
  obtain ⟨-, -, first, second, left, imports, led, led', -⟩ := main_meets copied_shim
  have led : led? copied ⟨"Main.sol"⟩ first = some ⟨"./real/Shim.sol"⟩ := led
  have led' : led? copied ⟨"Main.sol"⟩ second = some ⟨"./alias/Shim.sol"⟩ := led'
  simp only [copiedPlaces, List.forall_mem_cons, List.not_mem_nil, false_imp_iff, implies_true,
    and_true]
  refine ⟨⟨main_read, file_from_iff.mpr ⟨_, _, main_looked⟩, ?_⟩,
    ⟨shim_read, file_from_iff.mpr ⟨_, _, real_shim⟩, ?_⟩,
    ⟨copied_shim_read, file_from_iff.mpr ⟨_, _, copied_shim⟩, ?_⟩,
    ⟨dep_read, file_from_iff.mpr ⟨_, _, real_dep⟩, ?_⟩,
    ⟨alias_dep_read, file_from_iff.mpr ⟨_, _, alias_dep⟩, ?_⟩⟩
  · intro directive listed
    rw [imports] at listed
    rcases List.mem_cons.mp listed with rfl | listed
    · exact ⟨⟨"./real/Shim.sol"⟩, by simp, led⟩
    · rw [List.mem_singleton.mp listed]
      exact ⟨⟨"./alias/Shim.sol"⟩, by simp, led'⟩
  · intro directive listed
    exact ⟨⟨"./real/./Dep.sol"⟩, by simp,
      only_led shim_imports (by decide) (by decide) real_dep listed⟩
  · intro directive listed
    exact ⟨⟨"./alias/./Dep.sol"⟩, by simp,
      only_led shim_imports (by decide) (by decide) alias_dep listed⟩
  · simp [dep_imports.1]
  · simp [dep_imports.2]

private theorem copied_met {path : Path} (met : Meets copied ⟨"Main.sol"⟩ path) :
    ∃ place ∈ copiedPlaces, place.1 = path := by
  refine meets_induction (P := fun path => ∃ place ∈ copiedPlaces, place.1 = path)
    ⟨_, List.mem_cons_self, rfl⟩ ?_ met
  rintro _ text directive target ⟨place, among, rfl⟩ read listed led
  obtain ⟨own, -, leads⟩ := copied_places place among
  obtain rfl := Option.some.inj (own.symm.trans read)
  obtain ⟨next, among', led'⟩ := leads directive listed
  obtain rfl := Option.some.inj (led'.symm.trans led)
  exact List.mem_map.mp among'

private theorem copied_alike : LeadsAlike copied ⟨"Main.sol"⟩ := by
  intro path path' location text directive met met' found found' read listed
  obtain ⟨place, among, rfl⟩ := copied_met met
  obtain ⟨place', among', rfl⟩ := copied_met met'
  have there := Option.some.inj ((copied_places place among).2.1.symm.trans found)
  have there' := Option.some.inj ((copied_places place' among').2.1.symm.trans found')
  have apart : ∀ place ∈ copiedPlaces, ∀ place' ∈ copiedPlaces,
      place.2.2 = place'.2.2 → place.1 = place'.1 := by decide
  rw [apart place among place' among' (there.trans there'.symm)]

private theorem copied_whole {path : Path} (met : Meets copied ⟨"Main.sol"⟩ path) :
    ¬ Broken copied path := by
  intro broken
  obtain ⟨place, among, rfl⟩ := copied_met met
  obtain ⟨own, -, leads⟩ := copied_places place among
  rcases broken with unread | ⟨text, directive, read, listed, missing⟩
  · cases own.symm.trans unread
  · obtain rfl := Option.some.inj (own.symm.trans read)
    obtain ⟨next, -, led⟩ := leads directive listed
    cases led.symm.trans missing

/-- Without the link nothing is met by two paths. -/
private theorem real_alike : LeadsAlike linked ⟨"./real/Shim.sol"⟩ := by
  intro path path' location text directive met met' found found' read listed
  rcases real_met met with rfl | rfl
  · rcases real_met met' with rfl | rfl
    · rfl
    · have there := Option.some.inj ((file_from_iff.mpr ⟨_, _, real_shim⟩).symm.trans found)
      have there' := Option.some.inj ((file_from_iff.mpr ⟨_, _, real_dep⟩).symm.trans found')
      exact absurd (there.trans there'.symm) (by decide)
  · obtain rfl := Option.some.inj (dep_read.symm.trans read)
    simp [dep_imports.1] at listed

/-- A copy that imports another file is a conflict, and an entry without links resolves to a bundle
that is right about all that was met. -/
theorem copy_is_a_conflict :
    (∃ key first second, resolve copied ⟨"Main.sol"⟩ = .error (.conflict key first second)) ∧
    ∃ bundle, resolve linked ⟨"./real/Shim.sol"⟩ = .ok bundle ∧
      ∀ path, Meets linked ⟨"./real/Shim.sol"⟩ path →
        ∃ text file, RightAbout linked bundle path text file := by
  constructor
  · obtain ⟨met, met', -⟩ := main_meets copied_shim
    obtain ⟨directive, imports, -⟩ := List.map_eq_singleton_iff.mp shim_imports
    have listed : directive ∈ Import.scan shimText := by simp [imports]
    have leads : led? copied ⟨"./real/Shim.sol"⟩ directive = some ⟨"./real/./Dep.sol"⟩ :=
      only_led shim_imports (by decide) (by decide) real_dep listed
    have leads' : led? copied ⟨"./alias/Shim.sol"⟩ directive = some ⟨"./alias/./Dep.sol"⟩ :=
      only_led shim_imports (by decide) (by decide) alias_dep listed
    have content : contentOf? copied ⟨"./real/Shim.sol"⟩ =
        contentOf? copied ⟨"./alias/Shim.sol"⟩ := by
      rw [content_of_lookup copied_shim]
      exact content_of_lookup real_shim
    have apart : nameOf copied ⟨"./real/./Dep.sol"⟩ ≠ nameOf copied ⟨"./alias/./Dep.sol"⟩ := by
      have first : nameOf copied ⟨"./real/./Dep.sol"⟩ = nameFor realText := dep_named
      have second : nameOf copied ⟨"./alias/./Dep.sol"⟩ = nameFor aliasText :=
        name_of_lookup alias_dep
      rw [first, second]
      exact names_apart.2.2.2
    exact (right_iff_leads_alike.2 _ _ _ _ _ _ copied_alike met met' content shim_read listed leads
      leads' apart).2 fun _ => copied_whole
  · obtain ⟨left, visits, -⟩ := @shim_visit (.link ⟨"../real/Shim.sol"⟩)
      (rootOf linked ⟨"./real/Shim.sol"⟩) Walk.start rfl rfl fun _ => rfl
    have resolved := resolve_of_visit visits
    exact ⟨_, resolved, (right_iff_leads_alike.1 _ resolved).mpr real_alike⟩

/-- Without a look at what lies beside the link, a link to a file that has been visited resolves,
though the import of the file leads to another content from there. The bundle is not right about all
the paths that were met. -/
theorem link_resolves_wrongly : ∃ bundle path path' text directive target target',
    resolve linked ⟨"Main.sol"⟩ = .ok bundle ∧
    Meets linked ⟨"Main.sol"⟩ path ∧ Meets linked ⟨"Main.sol"⟩ path' ∧
    contentOf? linked path = contentOf? linked path' ∧ textOf? linked path = some text ∧
    directive ∈ Import.scan text ∧ led? linked path directive = some target ∧
    led? linked path' directive = some target' ∧
    contentOf? linked target ≠ contentOf? linked target' ∧
    ¬ ∀ path, Meets linked ⟨"Main.sol"⟩ path →
      ∃ text file, RightAbout linked bundle path text file := by
  obtain ⟨met, met', first, second, left, imports, led, led', visits, seen, free⟩ :=
    main_meets linked_shim
  -- By the second path nothing is left to visit.
  have again := @visit_seen linked (rootOf linked ⟨"Main.sol"⟩) left.reached _ _ _ _ linked_shim seen
  obtain ⟨rest, walked, same⟩ := visit_imports_of led' again visit_imports_nil
  obtain ⟨done, walked, same'⟩ := visit_imports_of led visits walked
  rw [← imports] at walked
  obtain ⟨onward, resolves, -⟩ := visit_adds main_looked main_named rfl (of_utf8_utf8 mainText)
    walked (by rw [same', same]; exact free)
  have resolved := resolve_of_visit resolves
  obtain ⟨directive, imports, path⟩ := List.map_eq_singleton_iff.mp shim_imports
  have listed : directive ∈ Import.scan shimText := by simp [imports]
  have leads : led? linked ⟨"./real/Shim.sol"⟩ directive = some ⟨"./real/./Dep.sol"⟩ :=
    led_beside path (by decide) (by decide) real_dep
  have leads' : led? linked ⟨"./alias/Shim.sol"⟩ directive = some ⟨"./alias/./Dep.sol"⟩ :=
    led_beside path (by decide) (by decide) alias_dep
  have read : textOf? linked ⟨"./real/Shim.sol"⟩ = some shimText := shim_read
  refine ⟨_, ⟨"./real/Shim.sol"⟩, ⟨"./alias/Shim.sol"⟩, shimText, directive, ⟨"./real/./Dep.sol"⟩,
    ⟨"./alias/./Dep.sol"⟩, resolved, met, met', ?_, read, listed, leads, leads', ?_, fun right => ?_⟩
  · rw [content_of_lookup linked_shim]
    exact content_of_lookup real_shim
  · rw [show contentOf? linked ⟨"./real/./Dep.sol"⟩ = some (Text.utf8 realText) from
        content_of_lookup real_dep,
      show contentOf? linked ⟨"./alias/./Dep.sol"⟩ = some (Text.utf8 aliasText) from
        content_of_lookup alias_dep]
    decide +kernel
  · have alike := leads_alike_of_right right _ _ _ _ _ met met' (file_from_iff.mpr ⟨_, _, real_shim⟩)
      (file_from_iff.mpr ⟨_, _, linked_shim⟩) read listed
    rw [(brought_of_led leads).1, (brought_of_led leads').1] at alike
    exact names_apart.2.2.2
      ((name_of_lookup real_dep).symm.trans ((Option.some.inj alike).trans (name_of_lookup alias_dep)))

end Visits

end Examples

end ContractBuild.WrittenImports
