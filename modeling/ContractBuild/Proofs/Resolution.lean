import ContractBuild.Proofs.SourceReach

/-! Resolution is complete and exact. The walk finds every file that the entry file needs, each with
its text rewritten, and fails for no other reason than a file that cannot be read, an import that
leads nowhere, or files of one content that import different files. -/
namespace ContractBuild.Resolution
open ByteForms FileTree ImportTargets PathPieces PathWalk RequestIdentity Source SourceReach

section Maps
variable {α : Type}

theorem get_place (key other : String) (value : α) (entries : List (String × α)) :
    ((KeyMap.place key value entries).find? fun entry => entry.1 = other).map Prod.snd =
      if other = key then some value
      else (entries.find? fun entry => entry.1 = other).map Prod.snd := by
  induction entries with
  | nil => by_cases same : other = key <;> simp [KeyMap.place, same, Ne.symm]
  | cons head rest ih =>
    simp only [KeyMap.place]
    split
    · by_cases same : other = key
      · simp [same]
      · simp [same, Ne.symm same]
    · split
      · rename_i replaced
        by_cases same : other = key
        · simp [same]
        · simp [same, ← replaced, Ne.symm same]
      · rename_i different
        by_cases same : other = key
        · subst same
          simpa [Ne.symm different] using ih
        · by_cases hit : head.1 = other
          · simp [hit, same]
          · simpa [hit, same] using ih

theorem get_eq_some_iff (map : KeyMap α) (key : String) (value : α) :
    map.get? key = some value ↔ (key, value) ∈ map.entries := by
  obtain ⟨entries, ascending⟩ := map
  simp only [KeyMap.get?]
  induction entries with
  | nil => simp
  | cons head rest ih =>
    obtain ⟨first, others⟩ := List.pairwise_cons.mp ascending
    have ih := ih others
    by_cases same : head.1 = key
    · subst same
      have later : (head.1, value) ∉ rest := fun inside =>
        String.lt_irrefl head.1 (first (head.1, value) inside)
      simp only [decide_true, List.find?_cons_of_pos, Option.map_some, Option.some.injEq,
        List.mem_cons, later, or_false]
      exact ⟨fun own => by rw [← own], fun own => by rw [← own]⟩
    · have other : (key, value) ≠ head := fun own => same (by rw [← own])
      simpa [same, other] using ih

/-- A key that is inserted has its new value; the other keys keep theirs. -/
theorem get_insert (map : KeyMap α) (key other : String) (value : α) :
    (map.insert key value).get? other = if other = key then some value else map.get? other :=
  get_place key other value map.entries

theorem get_insert_new (map : KeyMap α) (key other : String) (value : α)
    (new : map.get? key = none) :
    (map.insertNew key value).get? other = if other = key then some value else map.get? other := by
  simp only [KeyMap.insertNew, new, get_insert]

end Maps

section Visiting
variable {search : Search} {root : Option Location} {walk : Walk} {path : Path}
  {location : Location} {content : Bytes} {executable : Bool} {key : String} {text : List Char}

theorem logged_unread {cause : FileError}
    (failed : search.files.lookup search.here path = .error cause) :
    visitLogged search root walk path = ⟨[path], 1, .error (.read path cause)⟩ := by
  rw [visitLogged]
  split
  · rename_i cause' failed'
    obtain rfl := Except.error.inj (failed.symm.trans failed')
    rfl
  · rename_i looked
    cases failed.symm.trans looked

theorem visit_unread {cause : FileError}
    (failed : search.files.lookup search.here path = .error cause) :
    visit search root walk path = .error (.read path cause) :=
  congrArg Logged.outcome (logged_unread failed)

theorem logged_seen {node : Node}
    (looked : search.files.lookup search.here path = .ok (location, node))
    (seen : walk.keyOf? location = some key) :
    visitLogged search root walk path = ⟨[], 1, .ok ⟨key, walk, Nat.le_refl _⟩⟩ := by
  rw [visitLogged]
  split
  · rename_i failed
    cases looked.symm.trans failed
  · rename_i location' node' looked'
    obtain ⟨rfl, rfl⟩ := Prod.mk.inj (Except.ok.inj (looked.symm.trans looked'))
    split
    · rename_i key' seen'
      obtain rfl := Option.some.inj (seen.symm.trans seen')
      rfl
    · rename_i unseen
      cases seen.symm.trans unseen

theorem visit_seen {node : Node}
    (looked : search.files.lookup search.here path = .ok (location, node))
    (seen : walk.keyOf? location = some key) :
    visit search root walk path = .ok ⟨key, walk, Nat.le_refl _⟩ :=
  congrArg Logged.outcome (logged_seen looked seen)

theorem logged_no_file {node : Node}
    (looked : search.files.lookup search.here path = .ok (location, node))
    (new : walk.keyOf? location = none)
    (other : ∀ content executable, node ≠ .file content executable) :
    visitLogged search root walk path = ⟨[path], 1, .error (.read path .isDirectory)⟩ := by
  rw [visitLogged]
  split
  · rename_i failed
    cases looked.symm.trans failed
  · rename_i location' node' looked'
    obtain ⟨rfl, rfl⟩ := Prod.mk.inj (Except.ok.inj (looked.symm.trans looked'))
    split
    · rename_i seen
      cases new.symm.trans seen
    · split
      · exact absurd rfl (other _ _)
      · rfl

theorem visit_no_file {node : Node}
    (looked : search.files.lookup search.here path = .ok (location, node))
    (new : walk.keyOf? location = none)
    (other : ∀ content executable, node ≠ .file content executable) :
    visit search root walk path = .error (.read path .isDirectory) :=
  congrArg Logged.outcome (logged_no_file looked new other)

theorem logged_undecodable
    (looked : search.files.lookup search.here path = .ok (location, .file content executable))
    (new : walk.keyOf? location = none) (undecodable : Text.ofUtf8? content = none) :
    visitLogged search root walk path = ⟨[path], 1, .error (.encoding path)⟩ := by
  rw [visitLogged]
  split
  · rename_i failed
    cases looked.symm.trans failed
  · rename_i location' node' looked'
    obtain ⟨rfl, rfl⟩ := Prod.mk.inj (Except.ok.inj (looked.symm.trans looked'))
    split
    · rename_i seen
      cases new.symm.trans seen
    · dsimp only
      split
      · rfl
      · rename_i decoded
        cases undecodable.symm.trans decoded

theorem visit_undecodable
    (looked : search.files.lookup search.here path = .ok (location, .file content executable))
    (new : walk.keyOf? location = none) (undecodable : Text.ofUtf8? content = none) :
    visit search root walk path = .error (.encoding path) :=
  congrArg Logged.outcome (logged_undecodable looked new undecodable)

/-- The visit of a new source file reads it and then, by calls nested one deeper, what the visits of
its imports read. It is decided by these and by what the bundle has under its name then. -/
theorem logged_file
    (looked : search.files.lookup search.here path = .ok (location, .file content executable))
    (new : walk.keyOf? location = none) (decoded : Text.ofUtf8? content = some text)
    (named : (Digest.ofContent content).fileName search.language = key) :
    let inner := visitImportsLogged search root (walk.visit location key) path (Import.scan text)
    visitLogged search root walk path = ⟨path :: inner.reads, inner.depth + 1,
      match inner.outcome with
      | .error error => .error error
      | .ok ⟨replacements, after, grown⟩ =>
        have grown := Nat.le_trans grown (Nat.le_of_lt
          (Walk.unvisited_visit_lt key (get?_of_lookup looked) (by simp) new))
        match after.includes.get? key with
        | some present =>
          if present.script = String.ofList (replaceSpans text replacements) then
            .ok ⟨key, after, grown⟩
          else .error (.conflict key ((after.origins.get? key).getD ⟨""⟩) path)
        | none =>
          .ok ⟨key, after.add key path (shownPath root location)
            ⟨Declaration.scan text, String.ofList (replaceSpans text replacements)⟩, grown⟩⟩ := by
  subst named
  rw [visitLogged]
  split
  · rename_i failed
    cases looked.symm.trans failed
  · rename_i location' node' looked'
    obtain ⟨rfl, rfl⟩ := Prod.mk.inj (Except.ok.inj (looked.symm.trans looked'))
    split
    · rename_i seen
      cases new.symm.trans seen
    · dsimp only
      split
      · rename_i undecodable
        cases undecodable.symm.trans decoded
      · rename_i text' decoded'
        obtain rfl := Option.some.inj (decoded.symm.trans decoded')
        rfl

theorem visit_file
    (looked : search.files.lookup search.here path = .ok (location, .file content executable))
    (new : walk.keyOf? location = none) (decoded : Text.ofUtf8? content = some text)
    (named : (Digest.ofContent content).fileName search.language = key) :
    visit search root walk path =
      match visitImports search root (walk.visit location key) path (Import.scan text) with
      | .error error => .error error
      | .ok ⟨replacements, after, grown⟩ =>
        have grown := Nat.le_trans grown (Nat.le_of_lt
          (Walk.unvisited_visit_lt key (get?_of_lookup looked) (by simp) new))
        match after.includes.get? key with
        | some present =>
          if present.script = String.ofList (replaceSpans text replacements) then
            .ok ⟨key, after, grown⟩
          else .error (.conflict key ((after.origins.get? key).getD ⟨""⟩) path)
        | none =>
          .ok ⟨key, after.add key path (shownPath root location)
            ⟨Declaration.scan text, String.ofList (replaceSpans text replacements)⟩, grown⟩ :=
  congrArg Logged.outcome (logged_file looked new decoded named)

end Visiting

section Invariant
variable {search : Search} {root : Option Location} {start location : Location}
  {walk after : Walk} {passed : List Location}

/-- A walk has visited a location. -/
def Seen (walk : Walk) (location : Location) : Prop := (walk.keyOf? location).isSome

/-- A file is finished: its imports have been visited, and the bundle holds a file under its name
with its rewritten text. -/
def Finished (search : Search) (walk : Walk) (location : Location) : Prop :=
  ∃ text, textAt? search.files location = some text ∧
    (∀ directive ∈ Import.scan text, ∃ target,
      target? search location directive.path = some target ∧ Seen walk target) ∧
    ∃ file, walk.includes.get? (nameAt search location) = some file ∧
      file.script = rewritten search location text

/-- What holds all along a walk from `start`, in the middle of the files in `passed`. -/
structure Sound (search : Search) (root : Option Location) (start : Location) (walk : Walk)
    (passed : List Location) : Prop where
  visited : ∀ location key, walk.keyOf? location = some key →
    Reachable search start location ∧ nameAt search location = key
  pending : ∀ location ∈ passed, Seen walk location
  finished : ∀ location, Seen walk location → location ∉ passed → Finished search walk location
  included : ∀ key file, walk.includes.get? key = some file →
    ∃ location, walk.keyOf? location = some key ∧ bundled? search location = some file ∧
      walk.names.get? key = some (shownPath root location)
  named : ∀ key, (walk.names.get? key).isSome → (walk.includes.get? key).isSome

theorem start_sound (search : Search) (root : Option Location) (start : Location) :
    Sound search root start Walk.start [] where
  visited location key seen := by simp [Walk.start, Walk.keyOf?] at seen
  pending location inside := by simp at inside
  finished location seen := by simp [Seen, Walk.start, Walk.keyOf?] at seen
  included key file held := by simp [Walk.start, KeyMap.get?, KeyMap.empty] at held
  named key held := by simp [Walk.start, Names.get?, Names.empty, KeyMap.get?, KeyMap.empty] at held

theorem key_of_visit (walk : Walk) (location other : Location) (key : String) :
    (walk.visit location key).keyOf? other =
      if location = other then some key else walk.keyOf? other := by
  by_cases same : location = other <;> simp [Walk.keyOf?, Walk.visit, same]

private theorem finished_visit (key : String) {other : Location}
    (finished : Finished search walk other) : Finished search (walk.visit location key) other := by
  obtain ⟨text, read, led, held⟩ := finished
  refine ⟨text, read, fun directive listed => ?_, held⟩
  obtain ⟨target, found, seen⟩ := led directive listed
  refine ⟨target, found, ?_⟩
  simp only [Seen, key_of_visit]
  split
  · rfl
  · exact seen

/-- Entering a file keeps the invariant; the file is then one of those in the middle of which the
walk is. -/
theorem sound_visit {key : String} (sound : Sound search root start walk passed)
    (reachable : Reachable search start location) (name : nameAt search location = key)
    (new : walk.keyOf? location = none) :
    Sound search root start (walk.visit location key) (location :: passed) where
  visited other key seen := by
    rw [key_of_visit] at seen
    split at seen
    · rename_i same
      subst same
      exact ⟨reachable, name.trans (Option.some.inj seen)⟩
    · exact sound.visited other key seen
  pending other inside := by
    rw [Seen, key_of_visit]
    split
    · rfl
    · rename_i different
      rcases List.mem_cons.mp inside with rfl | inside
      · exact absurd rfl different
      · exact sound.pending other inside
  finished other seen outside := by
    rw [Seen, key_of_visit] at seen
    have different : location ≠ other := fun same => outside (by simp [same])
    rw [if_neg different] at seen
    exact finished_visit _
      (sound.finished other seen fun inside => outside (List.mem_cons_of_mem _ inside))
  included key file held := by
    obtain ⟨other, seen, bundled, shown⟩ := sound.included key file held
    refine ⟨other, ?_, bundled, shown⟩
    rw [key_of_visit, if_neg ?_]
    · exact seen
    · rintro rfl
      rw [new] at seen
      cases seen
  named := sound.named

/-- A file whose imports have been visited and whose name the bundle has with its rewritten text is
finished. -/
theorem sound_leave (sound : Sound search root start walk (location :: passed))
    (finished : Finished search walk location) : Sound search root start walk passed where
  visited := sound.visited
  pending other inside := sound.pending other (List.mem_cons_of_mem _ inside)
  finished other seen outside := by
    by_cases same : other = location
    · subst same
      exact finished
    · exact sound.finished other seen (by simp [same, outside])
  included := sound.included
  named := sound.named

/-- Adding a file whose name is new to the bundle keeps the invariant. -/
theorem sound_add {key : String} {file : IncludedFile}
    (sound : Sound search root start walk passed) (origin : Path)
    (seen : walk.keyOf? location = some key) (bundled : bundled? search location = some file)
    (new : walk.includes.get? key = none) :
    Sound search root start (walk.add key origin (shownPath root location) file) passed := by
  have unnamed : walk.names.paths.get? key = none := by
    cases held : walk.names.paths.get? key with
    | none => rfl
    | some path =>
      have := sound.named key (by simp [Names.get?, held])
      simp [new] at this
  have includes : ∀ other, (walk.add key origin (shownPath root location) file).includes.get? other =
      if other = key then some file else walk.includes.get? other :=
    fun other => get_insert ..
  have names : ∀ other, (walk.add key origin (shownPath root location) file).names.get? other =
      if other = key then some (shownPath root location) else walk.names.get? other :=
    fun other => get_insert_new _ _ _ _ unnamed
  refine ⟨sound.visited, sound.pending, fun other visited outside => ?_, fun other held inside => ?_,
    fun other held => ?_⟩
  · obtain ⟨text, read, led, present, held, script⟩ := sound.finished other visited outside
    refine ⟨text, read, led, present, ?_, script⟩
    rw [includes, if_neg ?_]
    · exact held
    · intro same
      rw [same, new] at held
      cases held
  · rw [includes] at inside
    split at inside
    · rename_i same
      obtain rfl := Option.some.inj inside
      exact ⟨location, same ▸ seen, bundled, by rw [names, if_pos same]⟩
    · rename_i different
      obtain ⟨there, visited, bundled', shown⟩ := sound.included other held inside
      exact ⟨there, visited, bundled', by rw [names, if_neg different, shown]⟩
  · rw [names] at held
    rw [includes]
    split
    · rfl
    · rename_i different
      rw [if_neg different] at held
      exact sound.named other held

/-- A file whose imports have been visited is finished by adding it to the bundle. -/
theorem sound_close {text : List Char} (origin : Path)
    (sound : Sound search root start walk (location :: passed)) (seen : Seen walk location)
    (read : textAt? search.files location = some text)
    (led : ∀ directive ∈ Import.scan text, ∃ target,
      target? search location directive.path = some target ∧ Seen walk target)
    (new : walk.includes.get? (nameAt search location) = none) :
    Sound search root start (walk.add (nameAt search location) origin (shownPath root location)
      ⟨Declaration.scan text, rewritten search location text⟩) passed := by
  obtain ⟨key, visited⟩ := Option.isSome_iff_exists.mp seen
  obtain ⟨-, rfl⟩ := sound.visited location key visited
  have bundled : bundled? search location =
      some ⟨Declaration.scan text, rewritten search location text⟩ := by
    simp [bundled?, read]
  refine sound_leave (sound_add sound origin visited bundled new) ?_
  exact ⟨text, read, led, _, (get_insert ..).trans (if_pos rfl), rfl⟩

/-- If the bundle has another text under the name of a needed file, the entry does not resolve. -/
theorem unresolvable_of_conflict {text : List Char} {present : IncludedFile}
    (sound : Sound search root start walk passed) (reachable : Reachable search start location)
    (read : textAt? search.files location = some text)
    (held : walk.includes.get? (nameAt search location) = some present)
    (different : present.script ≠ rewritten search location text) :
    ¬ Resolvable search start := by
  intro resolvable
  obtain ⟨other, visited, bundled, -⟩ := sound.included _ present held
  obtain ⟨reachable', named⟩ := sound.visited other _ visited
  have own : bundled? search location =
      some ⟨Declaration.scan text, rewritten search location text⟩ := by
    simp [bundled?, read]
  exact different (resolvable.agreeing other location _ _ reachable' reachable named bundled own)

end Invariant

section Visits
variable {search : Search} {root : Option Location} {entry : Path} {start : Location}

/-- What visiting the file at a location comes to: its name, with the invariant kept, or else proof
that the entry file does not resolve. -/
def VisitMeets (search : Search) (root : Option Location) (start location : Location) (walk : Walk)
    (passed : List Location) :
    Except ResolveError (Onward search.files walk String) → Prop
  | .ok onward => onward.value = nameAt search location ∧ Seen onward.reached location ∧
      Sound search root start onward.reached passed ∧
      ∀ other, Seen walk other → Seen onward.reached other
  | .error _ => ¬ Resolvable search start

/-- What visiting imports of the file at a location comes to. -/
def ImportsMeet (search : Search) (root : Option Location) (start location : Location) (walk : Walk)
    (passed : List Location) (imports : List Import) :
    Except ResolveError (Onward search.files walk (List (Span × List Char))) → Prop
  | .ok onward => onward.value = imports.map (replacement search location) ∧
      (∀ directive ∈ imports, ∃ target,
        target? search location directive.path = some target ∧ Seen onward.reached target) ∧
      Sound search root start onward.reached passed ∧
      ∀ other, Seen walk other → Seen onward.reached other
  | .error _ => ¬ Resolvable search start

mutual

theorem visit_meets (linkless : Linkless search.files) (short : StaysShort search entry)
    {walk : Walk} {path : Path} {passed : List Location} {location : Location}
    (trail : Trail search entry passed path)
    (found : fileFrom? search.files search.here path = some location)
    (reachable : Reachable search start location)
    (sound : Sound search root start walk passed) :
    VisitMeets search root start location walk passed (visit search root walk path) := by
  obtain ⟨content, executable, looked⟩ := file_from_iff.mp found
  have there := get?_of_lookup looked
  have held := content_of_file there
  have name : (Digest.ofContent content).fileName search.language = nameAt search location := by
    simp [nameAt, held]
  cases new : walk.keyOf? location with
  | some key =>
    have named := (sound.visited location key new).2
    rw [visit_seen looked new]
    exact ⟨named.symm, by simp [Seen, new], sound, fun _ kept => kept⟩
  | none =>
    cases decoded : Text.ofUtf8? content with
    | none =>
      rw [visit_undecodable looked new decoded]
      intro resolvable
      obtain ⟨text, read⟩ := resolvable.readable location reachable
      simp [textAt?, held, decoded] at read
    | some text =>
      have read : textAt? search.files location = some text := by simp [textAt?, held, decoded]
      have outside : location ∉ passed := by
        intro inside
        have := sound.pending location inside
        simp [Seen, new] at this
      have fewer := Walk.unvisited_visit_lt (nameAt search location) there (by simp) new
      have meets := visit_imports_meets (Import.scan text) linkless short trail found outside read
        (fun _ listed => listed) reachable (sound_visit sound reachable rfl new)
      rw [visit_file looked new decoded name]
      cases walked : visitImports search root (walk.visit location (nameAt search location)) path
        (Import.scan text) with
      | error error =>
        rw [walked] at meets
        exact meets
      | ok onward =>
        rw [walked] at meets
        obtain ⟨replacements, after, grown⟩ := onward
        obtain ⟨replaced, led, kept, more⟩ := meets
        have script : String.ofList (replaceSpans text replacements) =
            rewritten search location text := by
          rw [rewritten, ← replaced]
        have seen : Seen after location := more location (by simp [Seen, key_of_visit])
        have earlier : ∀ other, Seen walk other → Seen after other := by
          intro other before
          apply more
          rw [Seen, key_of_visit]
          split
          · rfl
          · exact before
        simp only [script]
        split
        · rename_i present inside
          split
          · rename_i same
            exact ⟨rfl, seen, sound_leave kept ⟨text, read, led, present, inside, same⟩, earlier⟩
          · rename_i different
            exact unresolvable_of_conflict kept reachable read inside different
        · rename_i absent
          exact ⟨rfl, seen, sound_close path kept seen read led absent, earlier⟩
termination_by (walk.unvisited search.files, 0)
decreasing_by exact Prod.Lex.left _ _ fewer

theorem visit_imports_meets (imports : List Import) (linkless : Linkless search.files)
    (short : StaysShort search entry)
    {walk : Walk} {importer : Path} {passed : List Location} {location : Location}
    {text : List Char}
    (trail : Trail search entry passed importer)
    (found : fileFrom? search.files search.here importer = some location)
    (new : location ∉ passed) (read : textAt? search.files location = some text)
    (listed : ∀ directive ∈ imports, directive ∈ Import.scan text)
    (reachable : Reachable search start location)
    (sound : Sound search root start walk (location :: passed)) :
    ImportsMeet search root start location walk (location :: passed) imports
      (visitImports search root walk importer imports) := by
  match imports, listed with
  | [], _ =>
    rw [visit_imports_nil]
    exact ⟨rfl, by simp, sound, fun _ seen => seen⟩
  | directive :: rest, listed =>
    have among : directive ∈ Import.scan text := listed directive (by simp)
    have target := target_eq_located directive.path linkless found
      (short _ _ _ _ _ trail found new read among)
    rw [visit_imports_cons]
    split
    · rename_i missing
      intro resolvable
      obtain ⟨there, led⟩ := resolvable.located location text reachable read directive among
      simp [target, missing] at led
    · rename_i path located
      obtain ⟨there, file⟩ := located_file located
      have led : target? search location directive.path = some there := by
        rw [target, located]
        exact file
      have meets := visit_meets linkless short
        (Trail.step trail found new read among located) file
        (reachable.tail ⟨text, directive, read, among, led⟩) sound
      split
      · rename_i error failed
        rw [failed] at meets
        exact meets
      · rename_i key reached grown walked
        rw [walked] at meets
        obtain ⟨named, seen, kept, more⟩ := meets
        have fewer := Nat.lt_or_eq_of_le grown
        have meets' := visit_imports_meets rest linkless short trail found new read
          (fun other inside => listed other (List.mem_cons_of_mem _ inside)) reachable kept
        split
        · rename_i error failed
          rw [failed] at meets'
          exact meets'
        · rename_i replacements after grown' walked'
          rw [walked'] at meets'
          obtain ⟨replaced, led', kept', more'⟩ := meets'
          dsimp only at named replaced
          refine ⟨?_, ?_, kept', fun other before => more' other (more other before)⟩
          · rw [List.map_cons, ← replaced, named, replacement, led]
            rfl
          · intro other inside
            rcases List.mem_cons.mp inside with rfl | inside
            · exact ⟨there, led, more' there seen⟩
            · exact led' other inside
termination_by (walk.unvisited search.files, imports.length + 1)
decreasing_by
  · exact Prod.Lex.right _ (by simp)
  · rcases fewer with fewer | same
    · exact Prod.Lex.left _ _ fewer
    · rw [same]
      exact Prod.Lex.right _ (by simp)

end

end Visits

section Outcome
variable {search : Search} {root : Option Location} {entry : Path} {start location : Location}
  {walk : Walk}

/-- Nothing that is needed is missing from a walk that is not in the middle of any file. -/
theorem seen_of_reachable (sound : Sound search root start walk []) (entered : Seen walk start)
    (reachable : Reachable search start location) : Seen walk location := by
  induction reachable with
  | refl => exact entered
  | tail before step ih =>
    obtain ⟨text, directive, read, listed, found⟩ := step
    obtain ⟨text', read', led, -⟩ := sound.finished _ ih (by simp)
    obtain rfl := Option.some.inj (read.symm.trans read')
    obtain ⟨target, found', seen⟩ := led directive listed
    obtain rfl := Option.some.inj (found.symm.trans found')
    exact seen

private theorem finished_of_reachable (sound : Sound search root start walk [])
    (entered : Seen walk start) (reachable : Reachable search start location) :
    Finished search walk location :=
  sound.finished location (seen_of_reachable sound entered reachable) (by simp)

theorem resolvable_of_sound (sound : Sound search root start walk []) (entered : Seen walk start) :
    Resolvable search start where
  readable location reachable := by
    obtain ⟨text, read, -⟩ := finished_of_reachable sound entered reachable
    exact ⟨text, read⟩
  located location text reachable read directive listed := by
    obtain ⟨text', read', led, -⟩ := finished_of_reachable sound entered reachable
    obtain rfl := Option.some.inj (read.symm.trans read')
    obtain ⟨target, found, -⟩ := led directive listed
    exact ⟨target, found⟩
  agreeing first second file file' reachable reachable' same bundled bundled' := by
    obtain ⟨text, read, -, present, held, script⟩ := finished_of_reachable sound entered reachable
    obtain ⟨text', read', -, present', held', script'⟩ :=
      finished_of_reachable sound entered reachable'
    rw [same, held'] at held
    obtain rfl := Option.some.inj held
    simp only [bundled?, read, read', Option.map_some, Option.some.injEq] at bundled bundled'
    rw [← bundled, ← bundled', ← script, ← script']

/-- An entry file that a walk can start with is there. -/
theorem entry_is_file {onward : Onward search.files Walk.start String}
    (visited : visit search root Walk.start entry = .ok onward) :
    ∃ location content executable,
      search.files.lookup search.here entry = .ok (location, .file content executable) := by
  cases looked : search.files.lookup search.here entry with
  | error cause =>
    rw [visit_unread looked] at visited
    cases visited
  | ok reached =>
    obtain ⟨location, node⟩ := reached
    cases node with
    | file content executable => exact ⟨location, content, executable, rfl⟩
    | directory =>
      rw [visit_no_file looked rfl (by simp)] at visited
      cases visited
    | link target =>
      rw [visit_no_file looked rfl (by simp)] at visited
      cases visited

/-- Where an entry file resolves, the walk has come to its end, and the bundle is what it holds. -/
theorem walk_of_resolve (linkless : Linkless search.files) (short : StaysShort search entry)
    (found : fileFrom? search.files search.here entry = some start) {bundle : Bundle}
    (resolved : resolve search entry = .ok bundle) :
    ∃ walk, Sound search (search.files.canonical search.here entry.directory).toOption start walk
        [] ∧ Seen walk start ∧ bundle = ⟨nameAt search start, walk.includes, walk.names⟩ := by
  have meets := visit_meets linkless short .entry found (Relation.ReflTransGen.refl)
    (start_sound search (search.files.canonical search.here entry.directory).toOption start)
  rw [resolve_eq] at resolved
  split at resolved
  · cases resolved
  · rename_i key walk grown walked
    rw [walked] at meets
    obtain ⟨named, entered, sound, -⟩ := meets
    dsimp only at named
    subst named
    exact ⟨walk, sound, entered, (Except.ok.inj resolved).symm⟩

/-- An entry file that is there resolves exactly if all it needs can be read, is found and agrees. -/
theorem resolves_iff_resolvable (linkless : Linkless search.files) (short : StaysShort search entry)
    (found : fileFrom? search.files search.here entry = some start) :
    (∃ bundle, resolve search entry = .ok bundle) ↔ Resolvable search start := by
  constructor
  · rintro ⟨bundle, resolved⟩
    obtain ⟨walk, sound, entered, -⟩ := walk_of_resolve linkless short found resolved
    exact resolvable_of_sound sound entered
  · intro resolvable
    have meets := visit_meets linkless short .entry found (Relation.ReflTransGen.refl)
      (start_sound search (search.files.canonical search.here entry.directory).toOption start)
    cases walked : visit search (search.files.canonical search.here entry.directory).toOption
      Walk.start entry with
    | error error =>
      rw [walked] at meets
      exact absurd resolvable meets
    | ok onward =>
      refine ⟨⟨onward.value, onward.reached.includes, onward.reached.names⟩, ?_⟩
      rw [resolve_eq, walked]

/-- A file that imports nothing resolves to itself alone. -/
theorem resolve_alone {content : Bytes} {executable : Bool} {text : List Char}
    (looked : search.files.lookup search.here entry = .ok (location, .file content executable))
    (decoded : Text.ofUtf8? content = some text) (alone : Import.scan text = []) :
    resolve search entry = .ok
      ⟨(Digest.ofContent content).fileName search.language,
        KeyMap.empty.insert ((Digest.ofContent content).fileName search.language)
          ⟨Declaration.scan text, String.ofList text⟩,
        Names.empty.insert ((Digest.ofContent content).fileName search.language)
          (shownPath (search.files.canonical search.here entry.directory).toOption location)⟩ := by
  have new : Walk.start.keyOf? location = none := rfl
  simp only [resolve_eq, visit_file looked new decoded rfl, alone, visit_imports_nil]
  rfl

end Outcome

section Examples

/-- The text of a source file that imports itself. -/
def cyclicText : List Char := "import \"././Main.sol\";\ncontract M \x7b\x7d".toList

/-- A search in a directory with one source file, which imports itself, and one other directory. -/
def cyclicSearch : Search where
  files := ⟨[(["a"], .directory), (["Main.sol"], .file (Text.utf8 cyclicText) false)]⟩
  here := []
  language := .solidity
  roots := []

theorem cyclic_linkless : Linkless cyclicSearch.files := by
  intro location target
  unfold get? cyclicSearch
  split
  · simp
  · by_cases first : ["a"] = location
    · simp [first]
    · by_cases second : ["Main.sol"] = location <;> simp [first, second]

theorem cyclic_read : textAt? cyclicSearch.files ["Main.sol"] = some cyclicText :=
  of_utf8_utf8 cyclicText

/-- The file has one import. -/
theorem cyclic_import : (∃ directive, Import.scan cyclicText = [directive]) ∧
    ∀ text directive, textAt? cyclicSearch.files ["Main.sol"] = some text →
      directive ∈ Import.scan text → directive.path = "././Main.sol" := by
  have paths : (Import.scan cyclicText).map Import.path = ["././Main.sol"] := by decide +kernel
  obtain ⟨directive, whole, path⟩ := List.map_eq_singleton_iff.mp paths
  refine ⟨⟨directive, whole⟩, fun text other read listed => ?_⟩
  obtain rfl := Option.some.inj (cyclic_read.symm.trans read)
  rw [whole] at listed
  rw [List.mem_singleton.mp listed]
  exact path

private theorem cyclic_walk (links : Nat) :
    cyclicSearch.files.walk true links [] .directory ["Main.sol"] =
      .ok (.taken ["Main.sol"] (.file (Text.utf8 cyclicText) false)) := by
  have name : IsName "Main.sol" := by decide
  rw [walk_found name (show _ = some (Node.file (Text.utf8 cyclicText) false) from rfl) (by simp),
    walk]
  rfl

theorem cyclic_file (path : Path) (accepted : '\x00' ∉ path.text.toList ∧
      path.text ≠ "" ∧ Text.byteLength path.text.toList ≤ maxPathBytes)
    (pieces : ∃ idle, path.pieces = idle ++ ["Main.sol"] ∧
      ∀ piece ∈ idle, Path.isIdle piece = true) :
    fileFrom? cyclicSearch.files cyclicSearch.here path = some ["Main.sol"] := by
  obtain ⟨idle, pieces, still⟩ := pieces
  refine file_from_iff.mpr ⟨Text.utf8 cyclicText, false, lookup_ok_iff.mpr
    ⟨⟨accepted.1, accepted.2.1, accepted.2.2⟩, ?_⟩⟩
  have start : (if path.isAbsolute then [] else cyclicSearch.here) = ([] : Location) := by
    split <;> rfl
  rw [pieces, start, walk_past_idles still]
  exact cyclic_walk _

theorem cyclic_target :
    target? cyclicSearch ["Main.sol"] "././Main.sol" = some ["Main.sol"] := by
  have beside := cyclic_file ⟨"././Main.sol"⟩ (by decide) ⟨[".", "."], by decide, by decide⟩
  unfold target?
  rw [show cyclicSearch.here = ["Main.sol"].dropLast from rfl] at beside
  rw [beside, Option.some_or]

private theorem cyclic_reachable {location : Location}
    (reachable : Reachable cyclicSearch ["Main.sol"] location) : location = ["Main.sol"] := by
  induction reachable with
  | refl => rfl
  | tail before step ih =>
    obtain ⟨text, directive, read, listed, found⟩ := step
    rw [ih] at read found
    rw [cyclic_import.2 text directive read listed, cyclic_target] at found
    exact (Option.some.inj found).symm

theorem cyclic_resolvable : Resolvable cyclicSearch ["Main.sol"] where
  readable location reachable := by
    rw [cyclic_reachable reachable]
    exact ⟨_, cyclic_read⟩
  located location text reachable read directive listed := by
    rw [cyclic_reachable reachable] at read ⊢
    rw [cyclic_import.2 text directive read listed]
    exact ⟨_, cyclic_target⟩
  agreeing first second file file' reachable reachable' _ bundled bundled' := by
    rw [cyclic_reachable reachable] at bundled
    rw [cyclic_reachable reachable', bundled] at bundled'
    rw [Option.some.inj bundled']

/-- The paths that a walk may come by. -/
private theorem cyclic_trails {passed : List Location} {path : Path}
    (trail : Trail cyclicSearch ⟨"Main.sol"⟩ passed path) :
    passed = [] ∧ path = ⟨"Main.sol"⟩ ∨ passed = [["Main.sol"]] ∧ path = ⟨"././Main.sol"⟩ := by
  have entered := cyclic_file ⟨"Main.sol"⟩ (by decide) ⟨[], by decide, by decide⟩
  have again := cyclic_file ⟨"././Main.sol"⟩ (by decide) ⟨[".", "."], by decide, by decide⟩
  induction trail with
  | entry => exact Or.inl ⟨rfl, rfl⟩
  | step before found new read listed located ih =>
    rcases ih with ⟨rfl, rfl⟩ | ⟨rfl, rfl⟩
    · obtain rfl := Option.some.inj (entered.symm.trans found)
      rw [cyclic_import.2 _ _ read listed] at located
      have located' : cyclicSearch.locate? ((Path.mk "Main.sol").parent?.getD ⟨"."⟩)
          "././Main.sol" = some ⟨"././Main.sol"⟩ := by
        have found := Option.isSome_iff_exists.mpr ⟨_, again⟩
        rw [← is_file_eq] at found
        have directory : (Path.mk "Main.sol").parent?.getD ⟨"."⟩ = ⟨""⟩ := by decide
        have relative : (Path.mk "././Main.sol").isAbsolute = false := by decide
        rw [directory]
        simp [Search.locate?, relative, Path.join, found]
      exact Or.inr ⟨rfl, Option.some.inj (located.symm.trans located')⟩
    · obtain rfl := Option.some.inj (again.symm.trans found)
      simp at new

theorem cyclic_short : StaysShort cyclicSearch ⟨"Main.sol"⟩ := by
  intro passed importer location text directive trail found new read listed
  rcases cyclic_trails trail with ⟨rfl, rfl⟩ | ⟨rfl, rfl⟩
  · have entered := cyclic_file ⟨"Main.sol"⟩ (by decide) ⟨[], by decide, by decide⟩
    obtain rfl := Option.some.inj (entered.symm.trans found)
    rw [cyclic_import.2 text directive read listed]
    decide
  · have again := cyclic_file ⟨"././Main.sol"⟩ (by decide) ⟨[".", "."], by decide, by decide⟩
    obtain rfl := Option.some.inj (again.symm.trans found)
    simp at new

end Examples

end ContractBuild.Resolution
