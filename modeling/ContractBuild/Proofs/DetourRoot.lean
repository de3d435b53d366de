import ContractBuild.Proofs.ArtifactFile

/-! Caches whose root path goes through a directory and back out of it. While that directory is
missing the path leads nowhere, though the directory that it ends in may be there, with an artifact
in it; whoever makes the directories of the path makes the missing one as well. Then the artifact is
found; and if the missing one is itself in the place of the cache, it is one entry more there. The
name of an artifact may go through the directory of its digest and back out of it in the same way. -/
namespace ContractBuild.DetourRoot
open ArtifactFile ByteForms CachePlace CacheRoom CompileSteps FileTree PathPieces PathRoute PathWalk
open WrittenFiles

section Making
variable {tree after : FileTree} {here location : Location} {path parent : Path} {node : Node}

/-- A path that goes on behind a name that is not there leads nowhere. -/
theorem find_past_absent {name : String} {rest : List String} (isName : IsName name)
    (absent : tree.get? ([] ++ [name]) = none) (accepted : Accepted path)
    (pieces : path.pieces = name :: rest) (on : GoesOn rest) (follow : Bool) :
    tree.find follow [] path = .error .notFound := by
  have open_ : rest.all (· = "") = false := not_final on []
  rw [find_accepted accepted, pieces, ite_self, walk_absent isName absent, open_]
  rfl

/-- Making a directory that is there once those above it have been made makes those. -/
theorem makes_above_only (nonempty : path.text ≠ "")
    (early : tree.find false here path = .error .notFound) (above : path.parent? = some parent)
    (made : tree.makeDirectories here parent = (.ok (), after))
    (found : ∀ follow, after.find follow here path = .ok (.taken location node)) :
    tree.makeDirectories here path =
      (if node = .directory then .ok () else .error .exists, after) := by
  have missing : tree.makeDirectory here path = .error .notFound := by rw [makeDirectory, early]
  have late : after.makeDirectory here path = .error .exists := by rw [makeDirectory, found]
  rw [makes_above nonempty missing above made, late]
  simp only [FileTree.isDirectory, lookup, found]
  cases node <;> rfl

end Making

section Outside

/-- A workspace in which a result and a file in the place of its sources are in the directory `c`, and
there is nothing else but an empty source file. -/
def buried (digest : Digest) : Workspace where
  files := ⟨[(["c"], .directory), (["c", digest.toHex], .directory),
    (["c", digest.toHex, Cache.resultName], .file noObjectsArtifact.encode false),
    (["c", digest.toHex, Cache.sourcesName], .file [] false), (["M.sol"], .file [] false)]⟩
  here := []
  process := 1
  issued := 0

/-- A cache whose root is the directory `c`, on a way through a directory that need not be there. -/
def detourCache : Cache := ⟨⟨"x/../c"⟩⟩

variable {path parent : Path} {rest : List String}

/-- The tree once the directory on the way is there. -/
def dugOut (digest : Digest) : FileTree := (buried digest).files.set ["x"] .directory

private theorem x_name : IsName "x" := by decide

theorem c_name : IsName "c" := by decide

private theorem x_absent (digest : Digest) : (buried digest).files.get? ([] ++ ["x"]) = none := by
  simp [buried, FileTree.get?]

/-- With it, the path leads where it would lead without the detour. -/
private theorem walk_dug_out (digest : Digest) (follow : Bool) (links : Nat) (rest : List String) :
    walk (dugOut digest) follow links [] .directory ("x" :: ".." :: rest) =
      walk (dugOut digest) follow links [] .directory rest := by
  have there : (dugOut digest).get? ([] ++ ["x"]) = some .directory := by
    rw [dugOut, get?_set _ _ _ _ (by simp)]
    exact if_pos rfl
  rw [walk_found x_name there (by simp), walk_up]
  rfl

/-- Making a directory that is there below the detour makes the directory on the way. -/
private theorem digs_out {location : Location} {node : Node} (accepted : Accepted path)
    (pieces : path.pieces = "x" :: ".." :: rest) (above : path.parent? = some parent)
    (made : (buried digest).files.makeDirectories [] parent = (.ok (), dugOut digest))
    (walked : ∀ follow, walk (dugOut digest) follow maxLinks [] .directory rest =
      .ok (.taken location node)) :
    (buried digest).files.makeDirectories [] path =
      (if node = .directory then .ok () else .error .exists, dugOut digest) := by
  have found : ∀ follow, (dugOut digest).find follow [] path = .ok (.taken location node) := by
    intro follow
    rw [find_accepted accepted, pieces, ite_self, walk_dug_out digest, walked]
  exact makes_above_only accepted.nonempty
    (find_past_absent x_name (x_absent digest) accepted pieces ⟨"..", by simp, by decide⟩ false)
    above made found

/-- What the locations in the tree hold once the directory on the way is there. -/
private theorem dug_out_holds (digest : Digest) :
    (dugOut digest).get? ["c"] = some .directory ∧
      (dugOut digest).get? ["c", digest.toHex] = some .directory ∧
      (dugOut digest).get? ["c", digest.toHex, Cache.resultName] =
        some (.file noObjectsArtifact.encode false) ∧
      (dugOut digest).get? ["c", digest.toHex, Cache.sourcesName] = some (.file [] false) := by
  have other : ∀ location, location ≠ ["x"] →
      (dugOut digest).get? location = (buried digest).files.get? location := by
    intro location different
    rw [dugOut, get?_set _ _ _ _ (by simp), if_neg different]
  have apart : Cache.resultName ≠ Cache.sourcesName := by decide
  rw [other _ (by simp), other _ (by simp), other _ (by simp), other _ (by simp)]
  simp [buried, FileTree.get?, apart]

private theorem dug_out_walks (digest : Digest) (follow : Bool) (rest : List String) :
    walk (dugOut digest) follow maxLinks [] .directory ("c" :: rest) =
      walk (dugOut digest) follow maxLinks ["c"] .directory rest ∧
    walk (dugOut digest) follow maxLinks ["c"] .directory (digest.toHex :: rest) =
      walk (dugOut digest) follow maxLinks ["c", digest.toHex] .directory rest := by
  obtain ⟨root, own, -⟩ := dug_out_holds digest
  constructor
  · exact walk_found c_name root (by simp)
  · exact walk_found (to_hex_is_name digest) own (by simp)

private theorem detour_roomy : Roomy detourCache.root := by decide

private theorem dug_out_rooted (digest : Digest) :
    Rooted detourCache ["c"] { buried digest with files := dugOut digest } := by
  have pieces : steps detourCache.root = ["x", "..", "c"] := by decide
  have walked := walk_dug_out digest true maxLinks ["c"]
  rw [(dug_out_walks digest true []).1, walk] at walked
  rw [Rooted, pieces]
  exact walked

theorem directory_above (digest : Digest) :
    (detourCache.directory digest).parent? = some detourCache.root :=
  parent_of_join (to_hex_plain digest) (show detourCache.root.pieces = "x" :: ["..", "c"] by decide)
    (by decide) (by decide) (by decide)

/-- The directory on the way can be made. -/
theorem x_made (digest : Digest) :
    (buried digest).files.makeDirectory [] ⟨"x"⟩ = .ok (dugOut digest) := by
  have found : (buried digest).files.find false [] ⟨"x"⟩ = .ok (.free ["x"] false) := by
    rw [find_accepted (by decide), ite_self, show (Path.mk "x").pieces = ["x"] by decide,
      walk_absent x_name (x_absent digest)]
    rfl
  rw [makeDirectory, found]
  rfl

/-- The root of the cache is there, but making it makes the directory on the way. -/
private theorem root_digs_out (digest : Digest) :
    (buried digest).files.makeDirectories [] detourCache.root = (.ok (), dugOut digest) := by
  have first : (buried digest).files.makeDirectories [] ⟨"x"⟩ = (.ok (), dugOut digest) := by
    rw [makeDirectories, if_neg (by decide), x_made]
  have second : (buried digest).files.makeDirectories [] ⟨"x/.."⟩ = (.ok (), dugOut digest) := by
    have pieces : (Path.mk "x/..").pieces = ["x", ".."] := by decide
    exact digs_out (by decide) pieces (by decide) first fun follow => by
      rw [walk]
  have pieces : detourCache.root.pieces = ["x", "..", "c"] := by decide
  have walked : ∀ follow, walk (dugOut digest) follow maxLinks [] .directory ["c"] =
      .ok (.taken ["c"] .directory) := by
    intro follow
    rw [(dug_out_walks digest follow []).1, walk]
  exact digs_out (by decide) pieces (by decide) second walked

/-- Making the directory for the sources makes the directory on the way and then fails. -/
theorem sources_blocked (digest : Digest) :
    (buried digest).files.makeDirectories [] (detourCache.sources digest) =
      (.error .exists, dugOut digest) := by
  have pieces : (detourCache.directory digest).pieces = ["x", "..", "c", digest.toHex] :=
    (directory_pieces detourCache digest).1
  have pieces' : (detourCache.sources digest).pieces =
      ["x", "..", "c", digest.toHex, Cache.sourcesName] :=
    (file_pieces detourCache digest sources_plain).1
  have own : (buried digest).files.makeDirectories [] (detourCache.directory digest) =
      (.ok (), dugOut digest) := by
    have walked : ∀ follow, walk (dugOut digest) follow maxLinks [] .directory
        ["c", digest.toHex] = .ok (.taken ["c", digest.toHex] .directory) := by
      intro follow
      rw [(dug_out_walks digest follow _).1, (dug_out_walks digest follow _).2, walk]
    exact digs_out (directory_accepted detour_roomy digest).1 pieces (directory_above digest)
      (root_digs_out digest) walked
  have above : (detourCache.sources digest).parent? = some (detourCache.directory digest) :=
    sources_parent digest (show steps detourCache.root = "x" :: ["..", "c"] by decide) (by decide)
  have walked : ∀ follow, walk (dugOut digest) follow maxLinks [] .directory
      ["c", digest.toHex, Cache.sourcesName] =
        .ok (.taken ["c", digest.toHex, Cache.sourcesName] (.file [] false)) := by
    intro follow
    rw [(dug_out_walks digest follow _).1, (dug_out_walks digest follow _).2,
      walk_found sources_fit.isName (dug_out_holds digest).2.2.2 (by simp), walk]
    rfl
  exact digs_out (file_accepted detour_roomy digest sources_fit) pieces' above own walked

/-- The artifact is not read while the directory on the way is missing, and is read once it is there. -/
theorem artifact_uncovered (digest : Digest) :
    detourCache.readArtifact? (buried digest) digest Cache.resultName = none ∧
      detourCache.readArtifact? { buried digest with files := dugOut digest } digest
        Cache.resultName = some noObjectsArtifact := by
  obtain ⟨root, own, result, -⟩ := dug_out_holds digest
  constructor
  · have pieces : (detourCache.file digest Cache.resultName).pieces =
        ["x", "..", "c", digest.toHex, Cache.resultName] :=
      (file_pieces detourCache digest result_plain).1
    have found := find_past_absent x_name (x_absent digest)
      (file_accepted detour_roomy digest result_fit) pieces ⟨"..", by simp, by decide⟩ true
    have lost : (buried digest).read (detourCache.file digest Cache.resultName) =
        .error .notFound := by
      unfold Workspace.read FileTree.read lookup
      rw [show (buried digest).here = [] from rfl, found]
    exact unread_artifact lost
  · have filled : Filled ["c"] digest noObjectsArtifact.encode
        { buried digest with files := dugOut digest }
        { buried digest with files := dugOut digest } := ⟨rfl, own, result, fun _ _ => rfl⟩
    have read := read_of_filled (dug_out_rooted digest) detour_roomy filled
    rw [read_artifact_of_read read, decode_written no_objects_fits.1]

end Outside

section Beside

/-- A workspace with an artifact in the directory `c`, beside the directories of digests. -/
def beside : Workspace where
  files := ⟨[(["c"], .directory), (["c", "x"], .file noObjectsArtifact.encode false)]⟩
  here := []
  process := 1
  issued := 0

/-- A name that leads to it, through the directory of a digest and back out. -/
def outerName : String := "../x"

private theorem outer_path (digest : Digest) :
    Accepted (smallCache.file digest outerName) ∧
      (smallCache.file digest outerName).pieces = ["c", digest.toHex, "..", "x"] := by
  obtain ⟨taken, short⟩ := directory_accepted small_roomy digest
  constructor
  · have room : Text.byteLength (smallCache.directory digest).text.toList + 1 + 4 ≤ maxPathBytes := by
      simp only [maxPathBytes]
      omega
    exact (accepted_join 4 taken.whole (by decide) (by decide) (by decide) room).1
  · have outer : (Path.mk outerName).pieces = ["..", "x"] := by decide
    have own : steps (smallCache.directory digest) = ["c", digest.toHex] :=
      steps_join (to_hex_plain digest) smallCache.root
    rw [Cache.file, pieces_join _ _ (by decide), own, outer]
    rfl

private theorem hex_not_x (digest : Digest) : digest.toHex ≠ "x" := by
  intro same
  have sizes := congrArg (·.toList.length) same
  simp [Digest.toHex, length_hex, digest.length_eq] at sizes

private theorem walk_beside {tree : FileTree} (there : tree.get? ([] ++ ["c"]) = some .directory)
    (follow : Bool) (rest : List String) :
    walk tree follow maxLinks [] .directory ("c" :: rest) =
      walk tree follow maxLinks ["c"] .directory rest :=
  walk_found c_name there (by simp)

/-- The artifact is not read under this name while there is no directory for the digest. -/
private theorem outer_covered (digest : Digest) :
    beside.files.get? (["c"] ++ [digest.toHex]) = none ∧
      smallCache.readArtifact? beside digest outerName = none := by
  have absent : beside.files.get? (["c"] ++ [digest.toHex]) = none := by
    simp [beside, FileTree.get?, (hex_not_x digest).symm]
  obtain ⟨accepted, pieces⟩ := outer_path digest
  have unread : beside.read (smallCache.file digest outerName) = .error .notFound := by
    unfold Workspace.read FileTree.read lookup
    rw [show beside.here = [] from rfl, find_accepted accepted, ite_self, pieces, walk_beside rfl,
      walk_absent (to_hex_is_name digest) absent]
    rfl
  exact ⟨absent, unread_artifact unread⟩

/-- Once there is one, the name leads to the artifact. -/
private theorem outer_found (digest : Digest) :
    (beside.files.set ["c", digest.toHex] .directory).lookup []
      (smallCache.file digest outerName) =
        .ok (["c", "x"], .file noObjectsArtifact.encode false) := by
  have held := fun other => get?_set beside.files ["c", digest.toHex] other .directory (by simp)
  have root := held ["c"]
  have own := held ["c", digest.toHex]
  have file := held ["c", "x"]
  rw [if_neg (by simp)] at root
  rw [if_pos rfl] at own
  rw [if_neg (by simpa using (hex_not_x digest).symm)] at file
  obtain ⟨accepted, pieces⟩ := outer_path digest
  refine lookup_ok_iff.mpr ⟨accepted, ?_⟩
  rw [ite_self, pieces, walk_beside root, walk_found (to_hex_is_name digest) own (by simp), walk_up]
  exact (walk_found x_name file (by simp)).trans (by rw [walk]; rfl)

/-- Making the directory of the digest lets the artifact be read under this name. -/
theorem outer_uncovered (digest : Digest) : ∃ files,
    beside.files.makeDirectory [] (smallCache.directory digest) = .ok files ∧
      smallCache.readArtifact? beside digest outerName = none ∧
      smallCache.readArtifact? { beside with files } digest outerName = some noObjectsArtifact := by
  obtain ⟨absent, unread⟩ := outer_covered digest
  have made : beside.files.makeDirectory [] (smallCache.directory digest) =
      .ok (beside.files.set ["c", digest.toHex] .directory) := by
    have taken := (directory_accepted small_roomy digest).1
    have pieces : (smallCache.directory digest).pieces = ["c", digest.toHex] :=
      (directory_pieces smallCache digest).1
    have free : walk beside.files false maxLinks ["c"] .directory [digest.toHex] =
        .ok (.free ["c", digest.toHex] false) := walk_absent (to_hex_is_name digest) absent
    rw [makeDirectory, find_accepted taken, ite_self, pieces, walk_beside rfl, free]
  refine ⟨_, made, unread, (read_artifact_of_read ?_).trans (decode_written no_objects_fits.1)⟩
  simp only [Workspace.read, FileTree.read, show beside.here = [] from rfl, outer_found]

end Beside

section Inside

/-- A workspace without files. -/
def bare : Workspace := ⟨⟨[]⟩, [], 1, 0⟩

/-- A cache whose root is the directory `c`, on a way through a directory in it. -/
def circuitCache : Cache := ⟨⟨"c/x/../../c"⟩⟩

/-- The tree once the directory `c` is there. -/
private def entered : FileTree := bare.files.set ["c"] .directory

/-- The tree once the directory in it is there as well. -/
def circuit : FileTree := entered.set ["c", "x"] .directory

theorem get_circuit {location : Location} (inner : location ≠ []) : circuit.get? location =
    if location = ["c", "x"] ∨ location = ["c"] then some .directory else none := by
  rw [circuit, get?_set _ _ _ _ (by simp), entered, get?_set _ _ _ _ (by simp)]
  by_cases first : location = ["c", "x"]
  · simp [first]
  · by_cases second : location = ["c"]
    · simp [second]
    · simp [first, second, inner, bare, FileTree.get?]

variable {path : Path} {rest : List String}

private theorem walk_circuit (follow : Bool) (rest : List String) :
    walk circuit follow maxLinks [] .directory ("c" :: rest) =
        walk circuit follow maxLinks ["c"] .directory rest ∧
      walk circuit follow maxLinks ["c"] .directory ("x" :: rest) =
        walk circuit follow maxLinks ["c", "x"] .directory rest :=
  ⟨walk_found c_name (show circuit.get? ([] ++ ["c"]) = some .directory from rfl) (by simp),
    walk_found x_name (show circuit.get? (["c"] ++ ["x"]) = some .directory from rfl) (by simp)⟩

/-- Making a directory that is there below both makes both. -/
private theorem goes_round {parent : Path} {location : Location} (accepted : Accepted path)
    (pieces : path.pieces = "c" :: "x" :: rest) (on : GoesOn ("x" :: rest))
    (above : path.parent? = some parent)
    (made : bare.files.makeDirectories [] parent = (.ok (), circuit))
    (walked : ∀ follow, walk circuit follow maxLinks ["c", "x"] .directory rest =
      .ok (.taken location .directory)) :
    bare.files.makeDirectories [] path = (.ok (), circuit) := by
  have found : ∀ follow, circuit.find follow [] path = .ok (.taken location .directory) := by
    intro follow
    rw [find_accepted accepted, ite_self, pieces, (walk_circuit follow _).1,
      (walk_circuit follow _).2, walked]
  exact makes_above_only accepted.nonempty (find_past_absent c_name rfl accepted pieces on false)
    above made found

private theorem circuit_walked (follow : Bool) :
    walk circuit follow maxLinks ["c", "x"] .directory ["..", "..", "c"] =
      .ok (.taken ["c"] .directory) := by
  rw [walk_up, walk_up]
  exact (walk_circuit follow _).1.trans (by rw [walk])

/-- Making the root makes its place and the directory in it. -/
theorem circuit_made : bare.files.makeDirectories [] circuitCache.root = (.ok (), circuit) := by
  have first : bare.files.makeDirectories [] ⟨"c"⟩ = (.ok (), entered) := by
    have found : bare.files.find false [] ⟨"c"⟩ = .ok (.free ["c"] false) := by
      rw [find_accepted (by decide), ite_self, show (Path.mk "c").pieces = ["c"] by decide,
        walk_absent c_name rfl]
      rfl
    rw [makeDirectories, if_neg (by decide), makeDirectory, found]
    rfl
  have second : bare.files.makeDirectories [] ⟨"c/x"⟩ = (.ok (), circuit) := by
    have accepted : Accepted ⟨"c/x"⟩ := by decide
    have pieces : (Path.mk "c/x").pieces = ["c", "x"] := by decide
    have late : entered.find false [] ⟨"c/x"⟩ = .ok (.free ["c", "x"] false) := by
      rw [find_accepted accepted, ite_self, pieces,
        walk_found c_name (show entered.get? ([] ++ ["c"]) = some .directory from rfl) (by simp),
        walk_absent x_name rfl]
      rfl
    rw [makes_above accepted.nonempty
      (by rw [makeDirectory, find_past_absent c_name rfl accepted pieces ⟨"x", by simp, by decide⟩])
      (by decide) first, makeDirectory, late]
    rfl
  have third : bare.files.makeDirectories [] ⟨"c/x/.."⟩ = (.ok (), circuit) :=
    goes_round (by decide) (show (Path.mk "c/x/..").pieces = ["c", "x", ".."] by decide)
      ⟨"x", by simp, by decide⟩ (by decide) second fun follow => by rw [walk_up, walk]
  have fourth : bare.files.makeDirectories [] ⟨"c/x/../.."⟩ = (.ok (), circuit) :=
    goes_round (by decide) (show (Path.mk "c/x/../..").pieces = ["c", "x", "..", ".."] by decide)
      ⟨"x", by simp, by decide⟩ (by decide) third fun follow => by rw [walk_up, walk_up, walk]
  exact goes_round (by decide) (show circuitCache.root.pieces = ["c", "x", "..", "..", "c"] by decide)
    ⟨"x", by simp, by decide⟩ (by decide) fourth circuit_walked

private theorem circuit_walk (follow : Bool) :
    walk circuit follow maxLinks [] .directory ["c", "x", "..", "..", "c"] =
      .ok (.taken ["c"] .directory) := by
  rw [(walk_circuit follow _).1, (walk_circuit follow _).2, circuit_walked]

theorem circuit_rooted : Rooted circuitCache ["c"] { bare with files := circuit } := by
  have pieces : steps circuitCache.root = ["c", "x", "..", "..", "c"] := by decide
  rw [Rooted, pieces]
  exact circuit_walk true

theorem circuit_placed : Placed circuitCache ["c"] { bare with files := circuit } where
  leads := route_of_walk circuit_rooted
  unlinked := by
    have pieces : circuitCache.root.pieces = ["c", "x", "..", "..", "c"] := by decide
    rw [pieces]
    exact route_of_walk (circuit_walk false)
  linkless location target within := by
    rw [get_circuit (by rintro rfl; simp at within)]
    split <;> simp

end Inside

end ContractBuild.DetourRoot
