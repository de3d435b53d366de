import ContractBuild.Proofs.CacheChange

/-! When a put succeeds: the root of the cache is a directory that is there, nothing belongs to the
digest yet, and the system takes the paths. -/
namespace ContractBuild.CacheRoom
open ByteForms CacheChange CachePlace FileTree PathPieces PathRoute PathWalk WrittenFiles

variable {cache : Cache} {place : Location} {w : Workspace} {digest : Digest}

/-- The root of a cache is a directory that is there. -/
def Rooted (cache : Cache) (place : Location) (w : Workspace) : Prop :=
  walk w.files true maxLinks (origin w cache.root) .directory (steps cache.root) =
    .ok (.taken place .directory)

/-- The root path leaves room for the names of a cache in what the system takes for a path. -/
structure Roomy (path : Path) : Prop where
  whole : '\x00' ∉ path.text.toList
  short : Text.byteLength path.text.toList ≤ 3000

instance (path : Path) : Decidable (Roomy path) :=
  decidable_of_iff ('\x00' ∉ path.text.toList ∧ Text.byteLength path.text.toList ≤ 3000)
    ⟨fun ⟨whole, short⟩ => ⟨whole, short⟩, fun roomy => ⟨roomy.whole, roomy.short⟩⟩

private theorem walk_on (rooted : Rooted cache place w) (follow : Bool) (rest : List String)
    (on : GoesOn rest) :
    ∃ left, walk w.files follow maxLinks (origin w cache.root) .directory
        (steps cache.root ++ rest) = walk w.files follow left place .directory rest := by
  rcases walk_append w.files maxLinks (origin w cache.root) .directory (steps cache.root) with
    ⟨reached, node, left, -, walked, onward⟩ | ⟨missed, -⟩
  · obtain ⟨rfl, rfl⟩ := Spot.taken.inj (Except.ok.inj (walked.symm.trans rooted))
    exact ⟨left, onward follow rest (Or.inl on)⟩
  · exact absurd rooted (missed place .directory)

/-- A name below a directory is taken by the system if both together are short enough. -/
theorem accepted_join {directory : Path} {name : String} (size : Nat)
    (whole : '\x00' ∉ directory.text.toList) (whole' : '\x00' ∉ name.toList) (visible : name ≠ "")
    (sized : Text.byteLength name.toList ≤ size)
    (short : Text.byteLength directory.text.toList + 1 + size ≤ maxPathBytes) :
    Accepted (directory.join ⟨name⟩) ∧
      Text.byteLength (directory.join ⟨name⟩).text.toList ≤
        Text.byteLength directory.text.toList + 1 + size := by
  have slash : Text.byteLength "/".toList = 1 := by decide
  have slash' : '\x00' ∉ "/".toList := by decide
  have nonempty : name.toList ≠ [] := by simpa [String.toList_eq_nil_iff] using visible
  have bound : Text.byteLength (directory.join ⟨name⟩).text.toList ≤
      Text.byteLength directory.text.toList + 1 + size := by
    unfold Path.join
    split
    · dsimp only
      omega
    · split
      · simp only [String.toList_append, byte_length_append]
        omega
      · simp only [String.toList_append, byte_length_append, slash]
        omega
  refine ⟨⟨?_, ?_, Nat.le_trans bound short⟩, bound⟩
  · unfold Path.join
    split
    · exact whole'
    · split
      · simp [whole, whole']
      · simp only [String.toList_append, List.mem_append]
        rintro ((inside | inside) | inside)
        · exact whole inside
        · exact slash' inside
        · exact whole' inside
  · rw [Ne, ← String.toList_eq_nil_iff]
    unfold Path.join
    split
    · exact nonempty
    · split <;> simp [nonempty]

theorem directory_accepted (roomy : Roomy cache.root) (digest : Digest) :
    Accepted (cache.directory digest) ∧
      Text.byteLength (cache.directory digest).text.toList ≤ 3065 := by
  obtain ⟨sized, whole⟩ := to_hex_bytes digest
  have short := roomy.short
  have joined := accepted_join 64 roomy.whole whole (plain_visible (to_hex_plain digest))
    (by omega) (by simp only [maxPathBytes]; omega)
  exact ⟨joined.1, by have := joined.2; simp only [Cache.directory]; omega⟩

/-- A plain name that the system takes for the name of a file. -/
structure Fit (name : String) : Prop where
  plain : Plain name
  isName : IsName name
  whole : '\x00' ∉ name.toList

theorem result_fit : Fit Cache.resultName :=
  ⟨result_plain, by decide, by decide⟩

theorem sources_fit : Fit Cache.sourcesName :=
  ⟨sources_plain, by decide, by decide⟩

theorem file_accepted (roomy : Roomy cache.root) (digest : Digest) {name : String}
    (fit : Fit name) : Accepted (cache.file digest name) := by
  obtain ⟨accepted, sized⟩ := directory_accepted roomy digest
  refine (accepted_join 255 accepted.whole fit.whole (plain_visible fit.plain) fit.isName.short ?_).1
  simp only [maxPathBytes]
  omega

theorem to_hex_fit (digest : Digest) : Fit digest.toHex :=
  ⟨to_hex_plain digest, to_hex_is_name digest, (to_hex_bytes digest).2⟩

section Children
variable {ε : Type} {directory : Path} {location : Location} {name old new : String}

/-- A relative path below a directory is followed from the directory. -/
theorem find_from (rooted : Rooted ⟨directory⟩ location w)
    (relative : (Path.mk name).isAbsolute = false) (on : GoesOn (Path.mk name).pieces)
    (accepted : Accepted (directory.join ⟨name⟩)) (follow : Bool) :
    ∃ left, w.files.find follow w.here (directory.join ⟨name⟩) =
      walk w.files follow left location .directory (Path.mk name).pieces := by
  obtain ⟨left, walked⟩ := walk_on rooted follow _ on
  refine ⟨left, ?_⟩
  rw [find_accepted accepted, pieces_join _ _ relative, absolute_join _ _ relative]
  exact walked

/-- A name in a directory is looked for in the directory. -/
private theorem find_child (rooted : Rooted ⟨directory⟩ location w) (fit : Fit name)
    (accepted : Accepted (directory.join ⟨name⟩)) (follow : Bool) :
    ∃ left, w.files.find follow w.here (directory.join ⟨name⟩) =
      walk w.files follow left location .directory [name] := by
  have pieces := plain_pieces fit.plain
  have on : GoesOn (Path.mk name).pieces := by
    rw [pieces]
    exact ⟨name, by simp, plain_visible fit.plain⟩
  obtain ⟨left, found⟩ := find_from rooted (plain_relative fit.plain) on accepted follow
  exact ⟨left, by rw [found, pieces]⟩

theorem find_free_child (rooted : Rooted ⟨directory⟩ location w) (fit : Fit name)
    (accepted : Accepted (directory.join ⟨name⟩)) (follow : Bool)
    (free : w.files.get? (location ++ [name]) = none) :
    w.files.find follow w.here (directory.join ⟨name⟩) = .ok (.free (location ++ [name]) false) := by
  obtain ⟨left, found⟩ := find_child rooted fit accepted follow
  rw [found, walk_absent fit.isName free]
  rfl

theorem find_kept_child (rooted : Rooted ⟨directory⟩ location w) (fit : Fit name)
    (accepted : Accepted (directory.join ⟨name⟩)) (follow : Bool) {content : Bytes}
    {executable : Bool} (there : w.files.get? (location ++ [name]) = some (.file content executable)) :
    w.files.find follow w.here (directory.join ⟨name⟩) =
      .ok (.taken (location ++ [name]) (.file content executable)) := by
  obtain ⟨left, found⟩ := find_child rooted fit accepted follow
  rw [found, walk_found fit.isName there (by simp), walk]

/-- A directory in a directory that is there is there. -/
theorem rooted_child (rooted : Rooted ⟨directory⟩ location w) (fit : Fit name)
    (there : w.files.get? (location ++ [name]) = some .directory) :
    Rooted ⟨directory.join ⟨name⟩⟩ (location ++ [name]) w := by
  obtain ⟨left, walked⟩ := walk_on rooted true [name] ⟨name, by simp, plain_visible fit.plain⟩
  rw [walk_found fit.isName there (by simp), walk] at walked
  rw [Rooted, origin, absolute_join _ _ (plain_relative fit.plain), steps_join fit.plain]
  exact walked

/-- A directory stays where it is when something is put into a free location. -/
theorem rooted_set (rooted : Rooted cache place w) (node : Node) {location : Location}
    (free : w.files.get? location = none) :
    Rooted cache place { w with files := w.files.set location node } :=
  walk_later (keeps_ways_set (Or.inl free) node) rfl rooted (.kept place)

/-- A directory is made in a directory that is there, and nothing else. -/
theorem makes_child (rooted : Rooted ⟨directory⟩ location w) (fit : Fit name)
    (accepted : Accepted (directory.join ⟨name⟩))
    (free : w.files.get? (location ++ [name]) = none) :
    w.files.makeDirectories w.here (directory.join ⟨name⟩) =
        (.ok (), w.files.set (location ++ [name]) .directory) ∧
      Rooted ⟨directory.join ⟨name⟩⟩ (location ++ [name])
        { w with files := w.files.set (location ++ [name]) .directory } := by
  have made : w.files.makeDirectory w.here (directory.join ⟨name⟩) =
      .ok (w.files.set (location ++ [name]) .directory) := by
    rw [makeDirectory, find_free_child rooted fit accepted false free]
  constructor
  · rw [makeDirectories, if_neg accepted.nonempty, made]
  · refine rooted_child (rooted_set rooted .directory free) fit ?_
    exact (get?_set _ _ _ _ (by simp)).trans (if_pos rfl)

/-- Where the directory above is missing as well, making the one below it fails. -/
theorem no_grandchild {inner : String} (rooted : Rooted ⟨directory⟩ location w) (fit : Fit name)
    (fit' : Fit inner) (accepted : Accepted ((directory.join ⟨name⟩).join ⟨inner⟩))
    (free : w.files.get? (location ++ [name]) = none) :
    w.files.makeDirectory w.here ((directory.join ⟨name⟩).join ⟨inner⟩) = .error .notFound := by
  obtain ⟨left, walked⟩ :=
    walk_on rooted false [name, inner] ⟨name, by simp, plain_visible fit.plain⟩
  rw [walk_absent fit.isName free, if_neg (by simp [plain_visible fit'.plain])] at walked
  have relative := plain_relative fit'.plain
  have found : w.files.find false w.here ((directory.join ⟨name⟩).join ⟨inner⟩) =
      .error .notFound := by
    rw [find_accepted accepted, pieces_join _ _ relative, plain_pieces fit'.plain,
      absolute_join _ _ relative, absolute_join _ _ (plain_relative fit.plain),
      steps_join fit.plain, List.append_assoc]
    exact walked
  rw [makeDirectory, found]

/-- Then the directory above is made first. -/
theorem makes_grandchild {inner : String} (rooted : Rooted ⟨directory⟩ location w) (fit : Fit name)
    (fit' : Fit inner) (accepted : Accepted (directory.join ⟨name⟩))
    (accepted' : Accepted ((directory.join ⟨name⟩).join ⟨inner⟩))
    (above : ((directory.join ⟨name⟩).join ⟨inner⟩).parent? = some (directory.join ⟨name⟩))
    (free : w.files.get? (location ++ [name]) = none)
    (free' : w.files.get? (location ++ [name] ++ [inner]) = none) :
    ∃ files, w.files.makeDirectories w.here ((directory.join ⟨name⟩).join ⟨inner⟩) =
        (.ok (), files) ∧
      Rooted ⟨(directory.join ⟨name⟩).join ⟨inner⟩⟩ (location ++ [name] ++ [inner])
        { w with files } ∧
      ∀ other, files.get? other =
        if other = location ++ [name] ++ [inner] then some .directory
        else if other = location ++ [name] then some .directory
        else w.files.get? other := by
  have early := no_grandchild rooted fit fit' accepted' free
  obtain ⟨made, rooted'⟩ := makes_child rooted fit accepted free
  have free'' : (w.files.set (location ++ [name]) .directory).get? (location ++ [name] ++ [inner]) =
      none := by
    rw [get?_set _ _ _ _ (by simp), if_neg (by simp)]
    exact free'
  have late := find_free_child rooted' fit' accepted' false free''
  refine ⟨(w.files.set (location ++ [name]) .directory).set (location ++ [name] ++ [inner])
    .directory, ?_, ?_, fun other => ?_⟩
  · rw [makes_above accepted'.nonempty early above made, makeDirectory, late]
  · refine rooted_child (rooted_set rooted' .directory free'') fit' ?_
    exact (get?_set _ _ _ _ (by simp)).trans (if_pos rfl)
  · rw [get?_set _ _ _ _ (by simp), get?_set _ _ _ _ (by simp)]

/-- A new file is written in a directory, and nothing else. -/
theorem writes_child (fail : FileError → ε) (content : Bytes)
    (rooted : Rooted ⟨directory⟩ location w) (fit : Fit name)
    (accepted : Accepted (directory.join ⟨name⟩))
    (free : w.files.get? (location ++ [name]) = none) :
    ∃ files, Disk.write fail (directory.join ⟨name⟩) content w = .ok () { w with files } ∧
      KeepsWays w.files files ∧ Rooted ⟨directory⟩ location { w with files } ∧
      ∀ other, files.get? other =
        if other = location ++ [name] then some (.file content false) else w.files.get? other := by
  have wrote : w.files.write w.here (directory.join ⟨name⟩) content =
      .ok (w.files.set (location ++ [name]) (.file content false)) := by
    rw [FileTree.write, find_free_child rooted fit accepted true free]
  refine ⟨w.files.set (location ++ [name]) (.file content false), ?_,
    keeps_ways_set (Or.inl free) _, rooted_set rooted _ free, fun other => ?_⟩
  · simp only [Disk.write, Disk.change, wrote]
  · exact get?_set _ _ _ _ (by simp)

/-- A path that ends in a name is not taken for a step. -/
theorem not_final_step (directory : Path) (front : List String) {last : String}
    (relative : (Path.mk name).isAbsolute = false) (pieces : (Path.mk name).pieces = front ++ [last])
    (isName : IsName last) :
    endsInStep (directory.join ⟨name⟩) = false ∧
      endsInSlash (directory.join ⟨name⟩) = false := by
  have pieces : (directory.join ⟨name⟩).pieces = steps directory ++ front ++ [last] := by
    rw [pieces_join _ _ relative, pieces, List.append_assoc]
  refine ⟨ends_in_name pieces isName.busy isName.inner (by simp), decide_eq_false fun slash => ?_⟩
  have ended := (last_piece_empty_iff (directory.join ⟨name⟩)).mpr (Or.inr slash)
  rw [pieces, List.getLast?_concat] at ended
  have busy := isName.busy
  rw [Option.some.inj ended] at busy
  cases busy

/-- A name that is no directory's is free or is taken by what is there, be it a link. -/
private theorem find_open_child (rooted : Rooted ⟨directory⟩ location w) (fit : Fit name)
    (accepted : Accepted (directory.join ⟨name⟩))
    (open_ : w.files.get? (location ++ [name]) ≠ some .directory) :
    w.files.find false w.here (directory.join ⟨name⟩) = .ok (.free (location ++ [name]) false) ∨
      ∃ node, node ≠ .directory ∧ w.files.find false w.here (directory.join ⟨name⟩) =
        .ok (.taken (location ++ [name]) node) := by
  obtain ⟨left, found⟩ := find_child rooted fit accepted false
  cases there : w.files.get? (location ++ [name]) with
  | none => exact Or.inl (find_free_child rooted fit accepted false there)
  | some node =>
    refine Or.inr ⟨node, fun directory => open_ (directory ▸ there), ?_⟩
    rw [found]
    by_cases link : ∃ target, node = .link target
    · obtain ⟨target, rfl⟩ := link
      exact walk_kept_link fit.isName there rfl
    · rw [walk_found fit.isName there fun target same => link ⟨target, same⟩, walk]

/-- A file is moved to a name that is no directory's, and nothing else changes. -/
theorem moves_child (fail : FileError → ε) (rooted : Rooted ⟨directory⟩ location w) (fit : Fit old)
    (fit' : Fit new) (accepted : Accepted (directory.join ⟨old⟩))
    (accepted' : Accepted (directory.join ⟨new⟩)) {content : Bytes}
    (there : w.files.get? (location ++ [old]) = some (.file content false))
    (open_ : w.files.get? (location ++ [new]) ≠ some .directory) :
    ∃ files, Disk.moveFile fail (directory.join ⟨old⟩) (directory.join ⟨new⟩) w =
        .ok () { w with files } ∧
      ∀ other, files.get? other =
        if other = location ++ [new] then some (.file content false)
        else if other = location ++ [old] then none
        else w.files.get? other := by
  have looked : w.files.lookup w.here (directory.join ⟨old⟩) =
      .ok (location ++ [old], .file content false) := by
    rw [lookup, find_kept_child rooted fit accepted true there]
  obtain ⟨plainStep, unclosed⟩ := not_final_step directory []
    (plain_relative fit'.plain) (plain_pieces fit'.plain) fit'.isName
  have replaced : ∀ other, ((w.files.erase (location ++ [old])).set (location ++ [new])
      (.file content false)).get? other =
        if other = location ++ [new] then some (.file content false)
        else if other = location ++ [old] then none
        else w.files.get? other := by
    intro other
    rw [get?_set _ _ _ _ (by simp), get?_erase _ _ _ (by simp)]
  rcases find_open_child rooted fit' accepted' open_ with found | ⟨node, solid, found⟩
  · refine ⟨_, ?_, replaced⟩
    simp only [Disk.moveFile, Disk.change, FileTree.moveFile, looked, found, plainStep, unclosed,
      Bool.false_eq_true, ↓reduceIte]
  · by_cases same : location ++ [new] = location ++ [old]
    · refine ⟨w.files, ?_, fun other => ?_⟩
      · cases node <;> simp_all [Disk.moveFile, Disk.change, FileTree.moveFile]
      · rw [same]
        split
        · rename_i own
          rw [own, there]
        · rfl
    · refine ⟨_, ?_, replaced⟩
      cases node with
      | directory => exact absurd rfl solid
      | file content' executable =>
        simp only [Disk.moveFile, Disk.change, FileTree.moveFile, looked, found, plainStep, unclosed,
          Bool.false_eq_true, ↓reduceIte, same]
      | link target =>
        simp only [Disk.moveFile, Disk.change, FileTree.moveFile, looked, found, plainStep, unclosed,
          Bool.false_eq_true, ↓reduceIte, same]

/-- A new file is written under a temporary name and moved into place: nothing else is different
then. -/
theorem writes_whole_child (fail : Path → FileError → ε) (content : Bytes)
    (rooted : Rooted ⟨directory⟩ location w) (fit : Fit name)
    (fit' : Fit s!".{name}.{w.process}.{w.issued}.tmp")
    (accepted : ∀ name, Fit name → Accepted (directory.join ⟨name⟩))
    (free : w.files.get? (location ++ [s!".{name}.{w.process}.{w.issued}.tmp"]) = none)
    (open_ : w.files.get? (location ++ [name]) ≠ some .directory) :
    ∃ after, Disk.writeWhole fail directory name content w = .ok (directory.join ⟨name⟩) after ∧
      after.here = w.here ∧
      ∀ other, after.files.get? other =
        if other = location ++ [name] then some (.file content false)
        else w.files.get? other := by
  obtain ⟨-, different⟩ := temporary_plain fit.plain w.process w.issued
  generalize named : s!".{name}.{w.process}.{w.issued}.tmp" = temporary at *
  have naming : Disk.temporaryName name w =
      (.ok temporary { w with issued := w.issued + 1 } : EStateM.Result ε Workspace String) := by
    rw [Disk.temporaryName, named]
  have rooted : Rooted ⟨directory⟩ location { w with issued := w.issued + 1 } := rooted
  obtain ⟨written, writing, -, rooted, held⟩ := writes_child (fail (directory.join ⟨temporary⟩))
    content rooted fit' (accepted _ fit') free
  have there : written.get? (location ++ [temporary]) = some (.file content false) := by
    rw [held, if_pos rfl]
  have open_ : written.get? (location ++ [name]) ≠ some .directory := by
    rw [held, if_neg (by simpa using different.symm)]
    exact open_
  obtain ⟨files, moving, held'⟩ := moves_child (fail (directory.join ⟨name⟩)) rooted fit' fit
    (accepted _ fit') (accepted _ fit) there open_
  have whole : Disk.writeWhole fail directory name content w = .ok (directory.join ⟨name⟩) _ :=
    (bind_of_ok naming _).trans ((bind_of_ok writing _).trans (bind_of_ok moving _))
  refine ⟨_, whole, rfl, fun other => ?_⟩
  rw [held', held]
  by_cases own : other = location ++ [temporary]
  · subst own
    simp only [↓reduceIte]
    exact congrArg _ free.symm
  · simp only [own, ↓reduceIte]

end Children

/-- The root of a cache is there, and in it the directory of a digest. -/
structure Opened (cache : Cache) (place : Location) (digest : Digest) (w : Workspace) : Prop where
  rooted : Rooted cache place w
  inside : w.files.get? (place ++ [digest.toHex]) = some .directory

theorem opened_directory (opened : Opened cache place digest w) :
    Rooted ⟨cache.directory digest⟩ (place ++ [digest.toHex]) w :=
  rooted_child opened.rooted (to_hex_fit digest) opened.inside

theorem artifact_in_directory (place : Location) (digest : Digest) (name : String) :
    place ++ [digest.toHex] ++ [name] = artifactPlace place digest name := by
  simp [artifactPlace]

section Digests
variable {ε : Type} {name old new : String}

theorem find_directory (rooted : Rooted cache place w) (roomy : Roomy cache.root)
    (new : w.files.get? (place ++ [digest.toHex]) = none) :
    w.files.find false w.here (cache.directory digest) =
      .ok (.free (place ++ [digest.toHex]) false) :=
  find_free_child rooted (to_hex_fit digest) (directory_accepted roomy digest).1 false new

/-- The directory of a new digest is made, and nothing else. -/
theorem makes_directory (fail : FileError → ε) (rooted : Rooted cache place w)
    (roomy : Roomy cache.root) (free : w.files.get? (place ++ [digest.toHex]) = none) :
    ∃ files, Disk.makeDirectories fail (cache.directory digest) w = .ok () { w with files } ∧
      Opened cache place digest { w with files } ∧
      ∀ location, files.get? location =
        if location = place ++ [digest.toHex] then some .directory else w.files.get? location := by
  obtain ⟨made, -⟩ :=
    makes_child rooted (to_hex_fit digest) (directory_accepted roomy digest).1 free
  have held : ∀ location, (w.files.set (place ++ [digest.toHex]) .directory).get? location =
      if location = place ++ [digest.toHex] then some .directory else w.files.get? location :=
    fun location => get?_set _ _ _ _ (by simp)
  refine ⟨w.files.set (place ++ [digest.toHex]) .directory, directories_made fail made, ⟨?_, ?_⟩,
    held⟩
  · exact rooted_set rooted .directory free
  · exact (held _).trans (if_pos rfl)

/-- A new file of a digest is written, and nothing else. -/
theorem writes_file (fail : FileError → ε) (content : Bytes)
    (opened : Opened cache place digest w) (roomy : Roomy cache.root) (fit : Fit name)
    (free : w.files.get? (artifactPlace place digest name) = none) :
    ∃ files, Disk.write fail (cache.file digest name) content w = .ok () { w with files } ∧
      Opened cache place digest { w with files } ∧
      ∀ location, files.get? location =
        if location = artifactPlace place digest name then some (.file content false)
        else w.files.get? location := by
  rw [← artifact_in_directory] at free ⊢
  obtain ⟨files, wrote, ways, -, held⟩ := writes_child fail content (opened_directory opened) fit
    (file_accepted roomy digest fit) free
  exact ⟨files, wrote, ⟨walk_later ways rfl opened.rooted (.kept place),
    ways.directories _ opened.inside⟩, held⟩

/-- A file of a digest is moved to a name that is free, and nothing else changes. -/
theorem moves_file (fail : FileError → ε) (opened : Opened cache place digest w)
    (roomy : Roomy cache.root) (fit : Fit old) (fit' : Fit new) {content : Bytes}
    (there : w.files.get? (artifactPlace place digest old) = some (.file content false))
    (free : w.files.get? (artifactPlace place digest new) = none) :
    ∃ files, Disk.moveFile fail (cache.file digest old) (cache.file digest new) w =
        .ok () { w with files } ∧
      ∀ location, files.get? location =
        if location = artifactPlace place digest new then some (.file content false)
        else if location = artifactPlace place digest old then none
        else w.files.get? location := by
  simp only [← artifact_in_directory] at there free ⊢
  exact moves_child fail (opened_directory opened) fit fit' (file_accepted roomy digest fit)
    (file_accepted roomy digest fit') there (by rw [free]; simp)

end Digests

/-- A result and its directory have been added to a workspace, and nothing else is different. -/
structure Filled (place : Location) (digest : Digest) (content : Bytes) (w after : Workspace) :
    Prop where
  here : after.here = w.here
  directory : after.files.get? (place ++ [digest.toHex]) = some .directory
  result : after.files.get? (artifactPlace place digest Cache.resultName) =
    some (.file content false)
  elsewhere : ∀ location, ¬ place ++ [digest.toHex] <+: location →
    after.files.get? location = w.files.get? location

/-- Bytes can be kept if the root of the cache is there, nothing belongs to the digest, and names and
paths fit. -/
theorem put_payload_succeeds (payload : Bytes) (version : String) (rooted : Rooted cache place w)
    (roomy : Roomy cache.root)
    (new : ∀ location, place ++ [digest.toHex] <+: location → w.files.get? location = none)
    (fit : Fit s!".{Cache.resultName}.{w.process}.{w.issued}.tmp") :
    ∃ after, cache.putPayload digest payload version w = .ok () after ∧
      Filled place digest (Artifact.mk version payload).encode w after := by
  have below : ∀ name, artifactPlace place digest name ≠ place ++ [digest.toHex] := by
    simp [artifactPlace]
  obtain ⟨files, making, opened, held⟩ :=
    makes_directory (CacheError.mk (cache.directory digest)) rooted roomy (new _ List.prefix_rfl)
  have free : ∀ name, files.get? (place ++ [digest.toHex] ++ [name]) = none := by
    intro name
    rw [held, if_neg (by simp)]
    exact new _ ⟨[name], rfl⟩
  obtain ⟨after, writing, here, held'⟩ := writes_whole_child CacheError.mk
    (Artifact.mk version payload).encode (opened_directory opened) result_fit fit
    (fun name fit => file_accepted roomy digest fit) (free _) (by rw [free]; simp)
  rw [artifact_in_directory] at held'
  have artifact : cache.writeArtifact digest Cache.resultName ⟨version, payload⟩ w =
      .ok (cache.file digest Cache.resultName) after := (bind_of_ok making _).trans writing
  refine ⟨after, bind_of_ok artifact _, here, ?_, ?_, fun location outside => ?_⟩
  · rw [held', if_neg (below _).symm]
    exact opened.inside
  · rw [held', if_pos rfl]
  · have other : location ≠ artifactPlace place digest Cache.resultName := by
      rintro rfl
      exact outside ⟨[Cache.resultName], by simp [artifactPlace]⟩
    rw [held', if_neg other, held, if_neg ?_]
    rintro rfl
    exact outside List.prefix_rfl

/-- A put succeeds under the same conditions. -/
theorem put_succeeds (response : Response) (version : String) (rooted : Rooted cache place w)
    (roomy : Roomy cache.root)
    (new : ∀ location, place ++ [digest.toHex] <+: location → w.files.get? location = none)
    (fit : Fit s!".{Cache.resultName}.{w.process}.{w.issued}.tmp") :
    ∃ after, cache.put digest response version w = .ok () after ∧
      Filled place digest (keptForm response version) w after :=
  put_payload_succeeds (Codec.response response) version rooted roomy new fit

section Found
variable {after : Workspace} {content : Bytes}

theorem rooted_of_filled (rooted : Rooted cache place w)
    (new : ∀ location, place ++ [digest.toHex] <+: location → w.files.get? location = none)
    (filled : Filled place digest content w after) : Rooted cache place after := by
  have holds : ∀ location node, w.files.get? location = some node →
      after.files.get? location = some node := by
    intro location node there
    rw [filled.elsewhere location ?_]
    · exact there
    · intro within
      rw [new location within] at there
      cases there
  have ways : KeepsWays w.files after.files := keeps_ways_of_kept holds
  have start : origin after cache.root = origin w cache.root := by
    rw [origin, origin, filled.here]
  rw [Rooted, start]
  exact walk_later ways rfl rooted (.kept place)

/-- The content of the result is read by its path. -/
theorem read_of_filled (rooted : Rooted cache place after) (roomy : Roomy cache.root)
    (filled : Filled place digest content w after) :
    after.read (cache.file digest Cache.resultName) = .ok content := by
  have there := filled.result
  rw [← artifact_in_directory] at there
  have found := find_kept_child (opened_directory ⟨rooted, filled.directory⟩) result_fit
    (file_accepted roomy digest result_fit) true there
  simp only [Workspace.read, FileTree.read, lookup, Cache.file, found]

/-- What was put is found again if its form can be read. -/
theorem entry_of_filled (rooted : Rooted cache place after) (roomy : Roomy cache.root)
    (filled : Filled place digest content w after) {artifact : Artifact} {response : Response}
    {rest : Bytes} (decoded : Artifact.decode? content = some artifact)
    (read : Codec.readResponse? artifact.payload = some (response, rest)) :
    cache.getEntry? after digest = some ⟨response, artifact.compilerVersion⟩ := by
  have kept : cache.readArtifact? after digest Cache.resultName = some artifact :=
    (read_artifact_of_read (read_of_filled rooted roomy filled)).trans decoded
  simp only [Cache.getEntry?, kept, Option.bind_eq_bind, Option.bind_some, read]
  rfl

end Found

end ContractBuild.CacheRoom
