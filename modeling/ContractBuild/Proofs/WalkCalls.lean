import ContractBuild.Proofs.Resolution

/-! What a walk through any tree does, links or no links, told by the paths it comes by. The visit
of a file calls the visits of what its imports lead to, each with the walk as it is by then. All
that a walk finds and all that it puts into the bundle comes from the calls that enter a file, and
each import of such a file is replaced by the name of what it leads to from the path of that call.
A file that has been entered is not entered again, by whatever path it is met. -/
namespace ContractBuild.WalkCalls
open FileTree ImportTargets PathWalk Resolution Source SourceReach

section Paths
variable (search : Search)

/-- The bytes that a path leads to. -/
def contentOf? (path : Path) : Option Bytes := (search.files.read search.here path).toOption

/-- The text that a path leads to, if it is UTF-8. -/
def textOf? (path : Path) : Option (List Char) := (contentOf? search path).bind Text.ofUtf8?

/-- The name of the bytes that a path leads to; without a file there it is empty. -/
def nameOf (path : Path) : String :=
  ((contentOf? search path).map fun content =>
    (Digest.ofContent content).fileName search.language).getD ""

/-- The path that an import is located at from the directory of its importer. -/
def led? (importer : Path) (directive : Import) : Option Path :=
  search.locate? (importer.parent?.getD ⟨"."⟩) directive.path

/-- What belongs in the place of an import: the name of the bytes that it leads to. -/
def writtenFor (importer : Path) (directive : Import) : Span × List Char :=
  (directive.span, (((led? search importer directive).map (nameOf search)).getD "").toList)

/-- The text of a file with each import replaced by the name of what it leads to from there. -/
def rewrittenAt (importer : Path) (text : List Char) : String :=
  String.ofList (replaceSpans text ((Import.scan text).map (writtenFor search importer)))

/-- Some import of the file that a path leads to is not found, or the file is not a text. -/
def Broken (path : Path) : Prop :=
  textOf? search path = none ∨ ∃ text directive, textOf? search path = some text ∧
    directive ∈ Import.scan text ∧ led? search path directive = none

end Paths

section Lookup
variable {search : Search} {path : Path} {location : Location} {content : Bytes}
  {executable : Bool}

theorem content_of_lookup
    (looked : search.files.lookup search.here path = .ok (location, .file content executable)) :
    contentOf? search path = some content := by
  simp only [contentOf?, FileTree.read, looked]
  rfl

/-- Bytes are those of the file that the path leads to. -/
theorem lookup_of_content (held : contentOf? search path = some content) :
    ∃ location executable,
      search.files.lookup search.here path = .ok (location, .file content executable) := by
  unfold contentOf? FileTree.read at held
  cases looked : search.files.lookup search.here path with
  | error cause => simp [looked, Except.toOption] at held
  | ok reached =>
    obtain ⟨location, node⟩ := reached
    cases node with
    | file content' executable =>
      obtain rfl : content' = content := by simpa [looked, Except.toOption] using held
      exact ⟨location, executable, rfl⟩
    | directory => simp [looked, Except.toOption] at held
    | link target => simp [looked, Except.toOption] at held

theorem name_of_lookup
    (looked : search.files.lookup search.here path = .ok (location, .file content executable)) :
    nameOf search path = (Digest.ofContent content).fileName search.language := by
  simp [nameOf, content_of_lookup looked]

theorem text_of_lookup
    (looked : search.files.lookup search.here path = .ok (location, .file content executable)) :
    textOf? search path = Text.ofUtf8? content := by
  simp [textOf?, content_of_lookup looked]

/-- A path leads to the bytes at the location that it leads to. -/
theorem content_at_location (found : fileFrom? search.files search.here path = some location) :
    contentOf? search path = contentAt? search.files location := by
  obtain ⟨content, executable, looked⟩ := file_from_iff.mp found
  rw [content_of_lookup looked, content_of_file (get?_of_lookup looked)]

theorem name_at_location (found : fileFrom? search.files search.here path = some location) :
    nameOf search path = nameAt search location := by
  rw [nameOf, nameAt, content_at_location found]

end Lookup

/-- The visit of a path, with the walk as it is when the visit begins. -/
structure Call where
  walk : Walk
  path : Path

/-- A call enters a file: the file has not been visited and its text can be read. -/
structure Enters (search : Search) (call : Call) (location : Location) (text : List Char) :
    Prop where
  found : fileFrom? search.files search.here call.path = some location
  new : call.walk.keyOf? location = none
  read : textOf? search call.path = some text

/-- The walk in the middle of the file that a call enters. -/
def Call.inside (search : Search) (call : Call) (location : Location) : Walk :=
  call.walk.visit location (nameOf search call.path)

/-- A call makes another: it enters a file, and after the imports before it the other one visits
what an import leads to. -/
inductive Calls (search : Search) (root : Option Location) : Call → Call → Prop where
  | intro {call : Call} {location : Location} {text : List Char} {before after : List Import}
      {directive : Import} {target : Path}
      {done : Onward search.files (call.inside search location) (List (Span × List Char))}
      (enters : Enters search call location text)
      (whole : Import.scan text = before ++ directive :: after)
      (walked : visitImports search root (call.inside search location) call.path before = .ok done)
      (led : led? search call.path directive = some target) :
      Calls search root call ⟨done.reached, target⟩

/-- A call is made by another, directly or not, or is that call. -/
def Within (search : Search) (root : Option Location) : Call → Call → Prop :=
  Relation.ReflTransGen (Calls search root)

/-- A call is made within the visits of imports. -/
def WithinImports (search : Search) (root : Option Location) (walk : Walk) (importer : Path)
    (imports : List Import) (inner : Call) : Prop :=
  ∃ (before after : List Import) (directive : Import) (target : Path)
    (done : Onward search.files walk (List (Span × List Char))),
    imports = before ++ directive :: after ∧
    visitImports search root walk importer before = .ok done ∧
    led? search importer directive = some target ∧
    Within search root ⟨done.reached, target⟩ inner

/-- Visited locations hold files and are known by the names of their contents. -/
def Named (search : Search) (walk : Walk) : Prop :=
  ∀ location key, walk.keyOf? location = some key → key = nameAt search location

/-- A walk goes on from another: it has forgotten nothing that was visited and nothing that was in
the bundle. -/
structure Extends (walk after : Walk) : Prop where
  seen : ∀ location, Seen walk location → Seen after location
  kept : ∀ key file, walk.includes.get? key = some file → after.includes.get? key = some file

/-- What is new in a walk comes from calls that entered a file. -/
structure Traced (search : Search) (walk after : Walk) (made : Call → Prop) : Prop where
  entered : ∀ location, Seen after location → Seen walk location ∨
    ∃ inner text, made inner ∧ Enters search inner location text
  included : ∀ key file, after.includes.get? key = some file →
    walk.includes.get? key = some file ∨ ∃ inner location text, made inner ∧
      Enters search inner location text ∧ key = nameOf search inner.path ∧
      file.script = rewrittenAt search inner.path text

section Steps
variable {search : Search} {root : Option Location} {walk middle after : Walk}
  {made made' : Call → Prop}

theorem extends_refl (walk : Walk) : Extends walk walk where
  seen _ seen := seen
  kept _ _ held := held

theorem extends_trans (first : Extends walk middle) (second : Extends middle after) :
    Extends walk after where
  seen location seen := second.seen location (first.seen location seen)
  kept key file held := second.kept key file (first.kept key file held)

theorem extends_visit (walk : Walk) (location : Location) (key : String) :
    Extends walk (walk.visit location key) where
  seen other seen := by
    rw [Seen, key_of_visit]
    split
    · rfl
    · exact seen
  kept _ _ held := held

theorem extends_add {key : String} (origin shown : Path) (file : IncludedFile)
    (new : walk.includes.get? key = none) : Extends walk (walk.add key origin shown file) where
  seen _ seen := seen
  kept other held inside := by
    have includes : (walk.add key origin shown file).includes.get? other =
        if other = key then some file else walk.includes.get? other := get_insert ..
    rw [includes, if_neg ?_]
    · exact inside
    · rintro rfl
      rw [new] at inside
      cases inside

theorem traced_refl (search : Search) (walk : Walk) (made : Call → Prop) :
    Traced search walk walk made where
  entered _ seen := Or.inl seen
  included _ _ held := Or.inl held

theorem traced_mono (traced : Traced search walk after made)
    (more : ∀ inner, made inner → made' inner) : Traced search walk after made' where
  entered location seen := by
    obtain before | ⟨inner, text, call, enters⟩ := traced.entered location seen
    · exact Or.inl before
    · exact Or.inr ⟨inner, text, more inner call, enters⟩
  included key file held := by
    obtain before | ⟨inner, location, text, call, rest⟩ := traced.included key file held
    · exact Or.inl before
    · exact Or.inr ⟨inner, location, text, more inner call, rest⟩

theorem traced_trans (first : Traced search walk middle made)
    (second : Traced search middle after made) : Traced search walk after made where
  entered location seen := by
    obtain before | later := second.entered location seen
    · exact first.entered location before
    · exact Or.inr later
  included key file held := by
    obtain before | later := second.included key file held
    · exact first.included key file before
    · exact Or.inr later

theorem named_visit (named : Named search walk) (location : Location) {key : String}
    (own : key = nameAt search location) : Named search (walk.visit location key) := by
  intro other key' seen
  rw [key_of_visit] at seen
  split at seen
  · rename_i same
    subst same
    rw [← Option.some.inj seen]
    exact own
  · exact named other key' seen

theorem traced_visit {call : Call} {location : Location} {text : List Char}
    (enters : Enters search call location text) :
    Traced search call.walk (call.inside search location) (Within search root call) where
  entered other seen := by
    rw [Seen, Call.inside, key_of_visit] at seen
    split at seen
    · rename_i same
      subst same
      exact Or.inr ⟨call, text, .refl, enters⟩
    · exact Or.inl seen
  included _ _ held := Or.inl held

theorem traced_add {call : Call} {location : Location} {text : List Char}
    (enters : Enters search call location text) (origin shown : Path) {file : IncludedFile}
    (script : file.script = rewrittenAt search call.path text) :
    Traced search walk (walk.add (nameOf search call.path) origin shown file)
      (Within search root call) where
  entered _ seen := Or.inl seen
  included key held inside := by
    have includes : (walk.add (nameOf search call.path) origin shown file).includes.get? key =
        if key = nameOf search call.path then some file else walk.includes.get? key :=
      get_insert ..
    rw [includes] at inside
    split at inside
    · rename_i same
      obtain rfl := Option.some.inj inside
      exact Or.inr ⟨call, location, text, .refl, enters, same, script⟩
    · exact Or.inl inside

end Steps

section Imports
variable {search : Search} {root : Option Location} {walk : Walk} {importer target : Path}
  {directive : Import} {imports : List Import} {call inner : Call} {location : Location}
  {text : List Char}

theorem visit_imports_done {reached after : Walk} {key : String}
    {replacements : List (Span × List Char)}
    {grown : reached.unvisited search.files ≤ walk.unvisited search.files}
    {grown' : after.unvisited search.files ≤ reached.unvisited search.files}
    (led : led? search importer directive = some target)
    (visited : visit search root walk target = .ok ⟨key, reached, grown⟩)
    (walked : visitImports search root reached importer imports =
      .ok ⟨replacements, after, grown'⟩) :
    visitImports search root walk importer (directive :: imports) =
      .ok ⟨(directive.span, key.toList) :: replacements, after, Nat.le_trans grown' grown⟩ := by
  unfold led? at led
  simp only [visit_imports_cons, led, visited, walked]

/-- The call for the first of some imports is made within their visits. -/
theorem within_first (led : led? search importer directive = some target)
    (within : Within search root ⟨walk, target⟩ inner) :
    WithinImports search root walk importer (directive :: imports) inner :=
  ⟨[], imports, directive, target, ⟨[], walk, Nat.le_refl _⟩, rfl, visit_imports_nil, led, within⟩

theorem within_rest {reached : Walk} {key : String}
    {grown : reached.unvisited search.files ≤ walk.unvisited search.files}
    (led : led? search importer directive = some target)
    (visited : visit search root walk target = .ok ⟨key, reached, grown⟩)
    (within : WithinImports search root reached importer imports inner) :
    WithinImports search root walk importer (directive :: imports) inner := by
  obtain ⟨before, after, directive', target', ⟨replacements, done, grown'⟩, rfl, walked, led',
    within⟩ := within
  exact ⟨directive :: before, after, directive', target', _, rfl,
    visit_imports_done led visited walked, led', within⟩

/-- What is called for the imports of a file is called by the visit that enters it. -/
theorem within_file (enters : Enters search call location text)
    (within : WithinImports search root (call.inside search location) call.path
      (Import.scan text) inner) : Within search root call inner := by
  obtain ⟨before, after, directive, target, done, whole, walked, led, within⟩ := within
  exact (Relation.ReflTransGen.single (.intro enters whole walked led)).trans within

end Imports

section Visits
variable {search : Search} {root : Option Location}

/-- What the visit of a path leaves. -/
structure Visited (search : Search) (root : Option Location) (call : Call) (answer : String)
    (after : Walk) : Prop where
  value : answer = nameOf search call.path
  named : Named search after
  goesOn : Extends call.walk after
  traced : Traced search call.walk after (Within search root call)
  seen : ∀ location, fileFrom? search.files search.here call.path = some location →
    Seen after location
  /-- A file that is entered is in the bundle in the end, with its text rewritten from there. -/
  written : ∀ location text, Enters search call location text →
    (∀ directive ∈ Import.scan text, ∃ target, led? search call.path directive = some target) ∧
    ∃ file, after.includes.get? (nameOf search call.path) = some file ∧
      file.script = rewrittenAt search call.path text

/-- What the visits of imports leave. -/
structure VisitedImports (search : Search) (root : Option Location) (walk : Walk)
    (importer : Path) (imports : List Import) (answer : List (Span × List Char)) (after : Walk) :
    Prop where
  value : answer = imports.map (writtenFor search importer)
  located : ∀ directive ∈ imports, ∃ target, led? search importer directive = some target
  named : Named search after
  goesOn : Extends walk after
  traced : Traced search walk after (WithinImports search root walk importer imports)

/-- What the visit of a path comes to: it leaves what it should, or fails over a conflict or over a
file that is broken. -/
def VisitMeets (search : Search) (root : Option Location) (call : Call) :
    Except ResolveError (Onward search.files call.walk String) → Prop
  | .ok onward => Visited search root call onward.value onward.reached
  | .error error => (∃ key first second, error = .conflict key first second) ∨
      ∃ inner, Within search root call inner ∧ Broken search inner.path

/-- What the visits of imports come to. -/
def ImportsMeet (search : Search) (root : Option Location) (walk : Walk) (importer : Path)
    (imports : List Import) :
    Except ResolveError (Onward search.files walk (List (Span × List Char))) → Prop
  | .ok onward =>
    VisitedImports search root walk importer imports onward.value onward.reached
  | .error error => (∃ key first second, error = .conflict key first second) ∨
      (∃ directive ∈ imports, led? search importer directive = none) ∨
      ∃ inner, WithinImports search root walk importer imports inner ∧ Broken search inner.path

/-- A file that has been visited is known by its name. -/
private theorem visited_seen {call : Call} {location : Location} {key : String}
    (named : Named search call.walk)
    (found : fileFrom? search.files search.here call.path = some location)
    (seen : call.walk.keyOf? location = some key) :
    Visited search root call key call.walk where
  value := by rw [named location key seen, name_at_location found]
  named := named
  goesOn := extends_refl _
  traced := traced_refl ..
  seen other found' := by
    obtain rfl := Option.some.inj (found.symm.trans found')
    simp [Seen, seen]
  written other text enters := by
    obtain rfl := Option.some.inj (found.symm.trans enters.found)
    cases seen.symm.trans enters.new

/-- Leaving a file: its imports have been visited, and its name is in the bundle. -/
private theorem visited_leave {call : Call} {location : Location} {text : List Char}
    {replacements : List (Span × List Char)} {after left : Walk}
    (enters : Enters search call location text)
    (visited : VisitedImports search root (call.inside search location) call.path
      (Import.scan text) replacements after)
    (named : Named search left) (goesOn : Extends after left)
    (traced : Traced search after left (Within search root call)) {file : IncludedFile}
    (held : left.includes.get? (nameOf search call.path) = some file)
    (script : file.script = rewrittenAt search call.path text) :
    Visited search root call (nameOf search call.path) left where
  value := rfl
  named := named
  goesOn := extends_trans (extends_visit ..) (extends_trans visited.goesOn goesOn)
  traced := traced_trans (traced_visit enters)
    (traced_trans (traced_mono visited.traced fun _ within => within_file enters within) traced)
  seen other found := by
    obtain rfl := Option.some.inj (enters.found.symm.trans found)
    refine goesOn.seen _ (visited.goesOn.seen _ ?_)
    simp [Seen, Call.inside, key_of_visit]
  written other text' enters' := by
    obtain rfl := Option.some.inj (enters.read.symm.trans enters'.read)
    exact ⟨visited.located, file, held, script⟩

mutual

theorem visit_meets_calls {walk : Walk} {path : Path} {location : Location}
    (named : Named search walk)
    (found : fileFrom? search.files search.here path = some location) :
    VisitMeets search root ⟨walk, path⟩ (visit search root walk path) := by
  obtain ⟨content, executable, looked⟩ := file_from_iff.mp found
  cases new : walk.keyOf? location with
  | some key =>
    rw [visit_seen looked new]
    have visited : Visited search root ⟨walk, path⟩ key walk := visited_seen named found new
    exact visited
  | none =>
    cases decoded : Text.ofUtf8? content with
    | none =>
      rw [visit_undecodable looked new decoded]
      refine Or.inr ⟨⟨walk, path⟩, .refl, Or.inl ?_⟩
      rw [text_of_lookup looked, decoded]
    | some text =>
      have read : textOf? search path = some text := (text_of_lookup looked).trans decoded
      have enters : Enters search ⟨walk, path⟩ location text := ⟨found, new, read⟩
      have fewer := Walk.unvisited_visit_lt (nameOf search path) (get?_of_lookup looked) (by simp)
        new
      have meets : ImportsMeet search root (walk.visit location (nameOf search path)) path
          (Import.scan text) _ :=
        visit_imports_meet_calls (Import.scan text)
          (named_visit named location (name_at_location found))
      rw [visit_file looked new decoded (name_of_lookup looked).symm]
      cases walked : visitImports search root (walk.visit location (nameOf search path)) path
        (Import.scan text) with
      | error error =>
        rw [walked] at meets
        rcases meets with conflict | ⟨directive, listed, missing⟩ | ⟨inner, within, broken⟩
        · exact Or.inl conflict
        · exact Or.inr ⟨_, .refl, Or.inr ⟨text, directive, read, listed, missing⟩⟩
        · exact Or.inr ⟨inner, within_file enters within, broken⟩
      | ok onward =>
        rw [walked] at meets
        obtain ⟨replacements, after, grown⟩ := onward
        have visited : VisitedImports search root
          (Call.inside search ⟨walk, path⟩ location) path (Import.scan text) replacements after :=
          meets
        have script : String.ofList (replaceSpans text replacements) =
            rewrittenAt search path text := by
          rw [rewrittenAt, ← visited.value]
        simp only [script]
        split
        · rename_i present held
          split
          · rename_i same
            exact visited_leave enters visited visited.named (extends_refl _) (traced_refl ..) held
              same
          · exact Or.inl ⟨_, _, _, rfl⟩
        · rename_i absent
          exact visited_leave enters visited visited.named (extends_add _ _ _ absent)
            (traced_add enters _ _ rfl) ((get_insert ..).trans (if_pos rfl)) rfl
termination_by (walk.unvisited search.files, 0)
decreasing_by exact Prod.Lex.left _ _ fewer

theorem visit_imports_meet_calls {walk : Walk} {importer : Path} (imports : List Import)
    (named : Named search walk) :
    ImportsMeet search root walk importer imports
      (visitImports search root walk importer imports) := by
  match imports with
  | [] =>
    rw [visit_imports_nil]
    exact ⟨rfl, by simp, named, extends_refl _, traced_refl ..⟩
  | directive :: rest =>
    rw [visit_imports_cons]
    split
    · rename_i missing
      exact Or.inr (Or.inl ⟨directive, by simp, missing⟩)
    · rename_i target located
      have led : led? search importer directive = some target := located
      obtain ⟨there, file⟩ := located_file located
      have meets := visit_meets_calls named file
      split
      · rename_i error failed
        rw [failed] at meets
        rcases meets with conflict | ⟨inner, within, broken⟩
        · exact Or.inl conflict
        · exact Or.inr (Or.inr ⟨inner, within_first led within, broken⟩)
      · rename_i key reached grown visited
        rw [visited] at meets
        obtain ⟨value, named', goesOn, traced, -⟩ := meets
        have fewer := Nat.lt_or_eq_of_le grown
        have meets' : ImportsMeet search root reached importer rest _ :=
          visit_imports_meet_calls rest named'
        split
        · rename_i error failed
          rw [failed] at meets'
          rcases meets' with conflict | ⟨other, listed, missing⟩ | ⟨inner, within, broken⟩
          · exact Or.inl conflict
          · exact Or.inr (Or.inl ⟨other, List.mem_cons_of_mem _ listed, missing⟩)
          · exact Or.inr (Or.inr ⟨inner, within_rest led visited within, broken⟩)
        · rename_i replacements after grown' walked
          rw [walked] at meets'
          obtain ⟨values, all, named'', goesOn', traced'⟩ := meets'
          dsimp only at value values
          refine ⟨?_, ?_, named'', extends_trans goesOn goesOn', ?_⟩
          · rw [List.map_cons, ← values, value, writtenFor, led]
            rfl
          · intro other listed
            rcases List.mem_cons.mp listed with rfl | listed
            · exact ⟨target, led⟩
            · exact all other listed
          · exact traced_trans (traced_mono traced fun _ within => within_first led within)
              (traced_mono traced' fun _ within => within_rest led visited within)
termination_by (walk.unvisited search.files, imports.length + 1)
decreasing_by
  · exact Prod.Lex.right _ (by simp)
  · rcases fewer with fewer | same
    · exact Prod.Lex.left _ _ fewer
    · rw [same]
      exact Prod.Lex.right _ (by simp)

end

end Visits

section Completion
variable {search : Search} {root : Option Location} {walk : Walk} {importer target : Path}
  {directive : Import}

/-- Visits of imports that succeed begin with that of the first one. -/
theorem visit_imports_ok {imports : List Import}
    {onward : Onward search.files walk (List (Span × List Char))}
    (walked : visitImports search root walk importer (directive :: imports) = .ok onward) :
    ∃ target visited, led? search importer directive = some target ∧
      visit search root walk target = .ok visited ∧
      ∃ rest, visitImports search root visited.reached importer imports = .ok rest ∧
        onward.reached = rest.reached := by
  rw [visit_imports_cons] at walked
  split at walked
  · cases walked
  · rename_i target located
    split at walked
    · cases walked
    · rename_i key reached grown visited
      split at walked
      · cases walked
      · rename_i replacements after grown' walked'
        obtain rfl := Except.ok.inj walked
        exact ⟨target, _, located, visited, _, walked', rfl⟩

/-- Where visits of imports succeed, so do those of the first ones alone. -/
theorem visit_first_imports {before after : List Import}
    {onward : Onward search.files walk (List (Span × List Char))}
    (walked : visitImports search root walk importer (before ++ after) = .ok onward) :
    ∃ done, visitImports search root walk importer before = .ok done := by
  induction before generalizing walk with
  | nil => exact ⟨_, visit_imports_nil⟩
  | cons other before ih =>
    obtain ⟨target, visited, led, visits, rest, walked', -⟩ := visit_imports_ok walked
    obtain ⟨done, first⟩ := ih walked'
    exact ⟨_, visit_imports_done led visits first⟩

/-- Among visits of imports that succeed, each succeeds, and the others go on from it. -/
theorem visit_among_imports {before after : List Import}
    {onward done : Onward search.files walk (List (Span × List Char))}
    (named : Named search walk)
    (walked : visitImports search root walk importer (before ++ directive :: after) = .ok onward)
    (first : visitImports search root walk importer before = .ok done)
    (led : led? search importer directive = some target) :
    Named search done.reached ∧ ∃ visited, visit search root done.reached target = .ok visited ∧
      Extends visited.reached onward.reached := by
  induction before generalizing walk with
  | nil =>
    rw [visit_imports_nil] at first
    obtain rfl := Except.ok.inj first
    obtain ⟨target', visited, led', visits, rest, walked', same⟩ := visit_imports_ok walked
    obtain rfl := Option.some.inj (led.symm.trans led')
    obtain ⟨there, file⟩ := located_file led
    have meets : VisitMeets search root ⟨walk, target⟩ _ := visit_meets_calls named file
    rw [visits] at meets
    have meets' : ImportsMeet search root visited.reached importer after _ :=
      visit_imports_meet_calls after meets.named
    rw [walked'] at meets'
    exact ⟨named, visited, visits, same ▸ meets'.goesOn⟩
  | cons other before ih =>
    obtain ⟨target', visited, led', visits, rest, walked', same⟩ := visit_imports_ok walked
    obtain ⟨target'', visited', led'', visits', done', first', same'⟩ := visit_imports_ok first
    obtain rfl := Option.some.inj (led'.symm.trans led'')
    obtain rfl := Except.ok.inj (visits.symm.trans visits')
    obtain ⟨there, file⟩ := located_file led'
    have meets : VisitMeets search root ⟨walk, target'⟩ _ := visit_meets_calls named file
    rw [visits] at meets
    rw [same, same']
    exact ih meets.named walked' first'

/-- A call that enters a file and succeeds calls what each import leads to. -/
theorem calls_of_led {call : Call} {onward : Onward search.files call.walk String}
    {location : Location} {text : List Char}
    (visited : visit search root call.walk call.path = .ok onward)
    (enters : Enters search call location text) (listed : directive ∈ Import.scan text)
    (led : led? search call.path directive = some target) :
    ∃ walk, Calls search root call ⟨walk, target⟩ := by
  obtain ⟨content, executable, looked⟩ := file_from_iff.mp enters.found
  have decoded : Text.ofUtf8? content = some text := (text_of_lookup looked).symm.trans enters.read
  rw [visit_file looked enters.new decoded (name_of_lookup looked).symm] at visited
  obtain ⟨before, after, whole⟩ := List.mem_iff_append.mp listed
  split at visited
  · cases visited
  · rename_i replacements all grown walked
    rw [whole] at walked
    obtain ⟨done, first⟩ := visit_first_imports walked
    exact ⟨done.reached, .intro enters whole first led⟩

/-- A call that is made by one that succeeds succeeds, and the calling one goes on from it. -/
theorem call_completes {call next : Call} {onward : Onward search.files call.walk String}
    (named : Named search call.walk)
    (visited : visit search root call.walk call.path = .ok onward)
    (calls : Calls search root call next) :
    Named search next.walk ∧ ∃ done, visit search root next.walk next.path = .ok done ∧
      Extends done.reached onward.reached := by
  obtain ⟨enters, whole, walked, led⟩ := calls
  rename_i location text before after directive target first
  obtain ⟨content, executable, looked⟩ := file_from_iff.mp enters.found
  have decoded : Text.ofUtf8? content = some text := (text_of_lookup looked).symm.trans enters.read
  rw [visit_file looked enters.new decoded (name_of_lookup looked).symm] at visited
  have named' : Named search (call.inside search location) :=
    named_visit named location (name_at_location enters.found)
  split at visited
  · cases visited
  · rename_i replacements all grown walked'
    rw [whole] at walked'
    obtain ⟨named'', done, visits, goesOn⟩ := visit_among_imports named' walked' walked led
    refine ⟨named'', done, visits, extends_trans goesOn ?_⟩
    dsimp only at visited
    split at visited
    · split at visited
      · obtain rfl := Except.ok.inj visited
        exact extends_refl _
      · cases visited
    · rename_i absent
      obtain rfl := Except.ok.inj visited
      exact extends_add _ _ _ absent

end Completion

section Resolves
variable {search : Search} {entry : Path} {bundle : Bundle}

/-- The call that resolving an entry file starts with. -/
def entryCall (entry : Path) : Call := ⟨Walk.start, entry⟩

/-- The directory that paths are shown relative to. -/
def rootOf (search : Search) (entry : Path) : Option Location :=
  (search.files.canonical search.here entry.directory).toOption

/-- Resolving an entry file comes to a call. -/
def Makes (search : Search) (entry : Path) (call : Call) : Prop :=
  Within search (rootOf search entry) (entryCall entry) call

theorem start_named (search : Search) : Named search Walk.start := by
  intro location key seen
  simp [Walk.start, Walk.keyOf?] at seen

/-- All that a bundle holds goes back to the calls that were made for it: each path that was met
leads to a file that some call entered, each entered file is in the bundle as it is rewritten from
there, what its imports lead to is met, and nothing else is in the bundle. -/
structure Accounts (search : Search) (entry : Path) (bundle : Bundle) : Prop where
  entered : ∀ call, Makes search entry call → ∃ location inner text,
    fileFrom? search.files search.here call.path = some location ∧
      Makes search entry inner ∧ Enters search inner location text
  written : ∀ call location text, Makes search entry call → Enters search call location text →
    (∀ directive ∈ Import.scan text, ∃ target, led? search call.path directive = some target) ∧
    ∃ file, bundle.includes.get? (nameOf search call.path) = some file ∧
      file.script = rewrittenAt search call.path text
  met : ∀ call location text directive target, Makes search entry call →
    Enters search call location text → directive ∈ Import.scan text →
    led? search call.path directive = some target → ∃ walk, Makes search entry ⟨walk, target⟩
  included : ∀ key file, bundle.includes.get? key = some file → ∃ call location text,
    Makes search entry call ∧ Enters search call location text ∧
      key = nameOf search call.path ∧ file.script = rewrittenAt search call.path text

/-- Every call that is made for a file that resolves succeeds, and what it leaves is kept. -/
theorem made_completes {onward : Onward search.files Walk.start String}
    (visited : visit search (rootOf search entry) Walk.start entry = .ok onward) {call : Call}
    (made : Makes search entry call) :
    Named search call.walk ∧ (∃ location, fileFrom? search.files search.here call.path =
      some location) ∧ ∃ done, visit search (rootOf search entry) call.walk call.path = .ok done ∧
        Extends done.reached onward.reached := by
  induction made with
  | refl =>
    obtain ⟨location, content, executable, looked⟩ := entry_is_file visited
    exact ⟨start_named search, ⟨location, file_from_iff.mpr ⟨content, executable, looked⟩⟩, onward,
      visited, extends_refl _⟩
  | tail before calls ih =>
    obtain ⟨named, -, done, visits, goesOn⟩ := ih
    obtain ⟨named', done', visits', goesOn'⟩ := call_completes named visits calls
    obtain ⟨-, -, -, led⟩ := calls
    exact ⟨named', located_file led, done', visits', extends_trans goesOn' goesOn⟩

theorem accounts_of_resolve (resolved : resolve search entry = .ok bundle) :
    Accounts search entry bundle := by
  rw [resolve_eq] at resolved
  split at resolved
  · cases resolved
  · rename_i key walk grown visited
    have visited : visit search (rootOf search entry) Walk.start entry = .ok ⟨key, walk, grown⟩ :=
      visited
    obtain rfl := Except.ok.inj resolved
    obtain ⟨named, ⟨start, found⟩, -⟩ := made_completes visited (.refl : Makes search entry _)
    have whole : VisitMeets search (rootOf search entry) (entryCall entry) _ :=
      visit_meets_calls named found
    rw [visited] at whole
    refine ⟨fun call made => ?_, fun call location text made enters => ?_,
      fun call location text directive target made enters listed led => ?_,
      fun key file held => ?_⟩
    · obtain ⟨named, ⟨location, found⟩, done, visits, goesOn⟩ := made_completes visited made
      have meets : VisitMeets search (rootOf search entry) call _ := visit_meets_calls named found
      rw [visits] at meets
      obtain before | ⟨inner, text, made', enters⟩ :=
        whole.traced.entered location (goesOn.seen _ (meets.seen location found))
      · simp [Seen, entryCall, Walk.start, Walk.keyOf?] at before
      · exact ⟨location, inner, text, found, made', enters⟩
    · obtain ⟨named, ⟨there, found⟩, done, visits, goesOn⟩ := made_completes visited made
      have meets : VisitMeets search (rootOf search entry) call _ := visit_meets_calls named found
      rw [visits] at meets
      obtain ⟨located, file, held, script⟩ := meets.written location text enters
      exact ⟨located, file, goesOn.kept _ _ held, script⟩
    · obtain ⟨-, -, done, visits, -⟩ := made_completes visited made
      obtain ⟨walk, calls⟩ := calls_of_led visits enters listed led
      exact ⟨walk, made.tail calls⟩
    · obtain before | ⟨inner, location, text, made, enters, name, script⟩ :=
        whole.traced.included key file held
      · simp [entryCall, Walk.start, KeyMap.get?, KeyMap.empty] at before
      · exact ⟨inner, location, text, made, enters, name, script⟩

/-- Resolving fails over a conflict, or over a file that is met and is broken. -/
theorem resolve_error {error : ResolveError} (failed : resolve search entry = .error error) :
    (∃ key first second, error = .conflict key first second) ∨
      ∃ call, Makes search entry call ∧ Broken search call.path := by
  cases found : fileFrom? search.files search.here entry with
  | none =>
    have unread : contentOf? search entry = none := by
      rw [Option.eq_none_iff_forall_ne_some]
      intro content held
      obtain ⟨location, executable, looked⟩ := lookup_of_content held
      cases found.symm.trans (file_from_iff.mpr ⟨content, executable, looked⟩)
    exact Or.inr ⟨entryCall entry, .refl, Or.inl (by simp [textOf?, entryCall, unread])⟩
  | some location =>
    have meets : VisitMeets search (rootOf search entry) (entryCall entry) _ :=
      visit_meets_calls (start_named search) found
    rw [resolve_eq] at failed
    split at failed
    · rename_i error' visited
      obtain rfl := Except.error.inj failed
      have visited : visit search (rootOf search entry) Walk.start entry = .error error' := visited
      rw [visited] at meets
      exact meets
    · cases failed

end Resolves

end ContractBuild.WalkCalls
