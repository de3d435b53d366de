import ContractBuild.Proofs.PrintedJson
import ContractBuild.Request.Wire

/-! Requests on the wire. Whatever characters the texts of a request hold, the document that is sent for
it writes that request and no other, so the receiver compiles under the same digest and with the same
arguments. -/
namespace ContractBuild.WireForm
open Json PrintedJson Source

section Maps
variable {α : Type} {key : String} {value : α} {entries : List (String × α)}

/-- A key after all others goes to the end. -/
theorem place_last (last : ∀ entry ∈ entries, entry.1 < key) :
    KeyMap.place key value entries = entries ++ [(key, value)] := by
  induction entries with
  | nil => rfl
  | cons entry entries ih =>
    have before : entry.1 < key := last entry (List.mem_cons_self ..)
    have notAfter : ¬ key < entry.1 := fun after =>
      String.lt_irrefl key (String.lt_trans after before)
    have other : key ≠ entry.1 := by
      rintro rfl
      exact String.lt_irrefl _ before
    rw [KeyMap.place, if_neg notAfter, if_neg other,
      ih fun entry inside => last entry (List.mem_cons_of_mem _ inside), List.cons_append]

/-- Entries in ascending order make up the map that has them. -/
theorem of_entries (map : KeyMap α) : KeyMap.ofList map.entries = map := by
  have built : ∀ (entries : List (String × α)) (made : KeyMap α),
      (made.entries ++ entries).Pairwise (fun a b => a.1 < b.1) →
      (entries.foldl (fun map entry => map.insert entry.1 entry.2) made).entries =
        made.entries ++ entries := by
    intro entries
    induction entries with
    | nil => simp
    | cons entry entries ih =>
      intro made ascending
      have last : ∀ earlier ∈ made.entries, earlier.1 < entry.1 := fun earlier inside =>
        (List.pairwise_append.mp ascending).2.2 earlier inside entry (List.mem_cons_self ..)
      have placed : (made.insert entry.1 entry.2).entries = made.entries ++ [entry] :=
        place_last last
      rw [List.foldl_cons, ih _ (by simpa [placed] using ascending), placed, List.append_assoc]
      rfl
  have whole := built map.entries KeyMap.empty map.ascending
  cases map
  simp only [KeyMap.ofList, KeyMap.empty, List.nil_append] at whole ⊢
  generalize made : List.foldl _ _ _ = found at whole ⊢
  cases found
  simpa using whole

end Maps

section Files

/-- What an included file is read as. -/
def fileTree (file : IncludedFile) : Tree :=
  spelled [("object_names", .array (file.objectNames.map fun name => .string (spelling name))),
    ("script", .string (spelling file.script))]

theorem file_read_as (file : IncludedFile) :
    ReadAs (Request.fileValue file).compact (fileTree file) := by
  refine object_read_as (.cons ⟨rfl, ?_⟩ (.cons ⟨rfl, quoted_read_as file.script⟩ .nil))
  apply array_read_as
  rw [List.forall₂_map_left_iff, List.forall₂_map_right_iff, List.forall₂_same]
  exact fun name _ => quoted_read_as name

theorem file_read (file : IncludedFile) : Request.readFile (fileTree file) = some file := by
  have fields : (fileTree file).fields? ["object_names", "script"] =
      some [some (.array (file.objectNames.map fun name => .string (spelling name))),
        some (.string (spelling file.script))] := by
    rw [fileTree, fields_of_spelled]
    simp [Tree.field?]
  have names : (file.objectNames.map fun name => Tree.string (spelling name)).mapM Tree.text? =
      some file.objectNames := by
    simp only [List.mapM_map, Function.comp_def, text_of_spelling]
    exact List.mapM_pure.trans (congrArg some (List.map_id _))
  unfold Request.readFile
  rw [fields]
  simp only [Tree.required?, Tree.listOf?, names, text_of_spelling, Option.bind_eq_bind,
    Option.bind_some]
  rfl

/-- What included files are read as. -/
def includesTree (includes : IncludeMap) : Tree :=
  spelled (includes.entries.map fun entry => (entry.1, fileTree entry.2))

theorem includes_read_as (includes : IncludeMap) :
    ReadAs (Value.object (includes.entries.map fun entry =>
      (entry.1, Request.fileValue entry.2))).compact (includesTree includes) := by
  apply object_read_as
  rw [List.forall₂_map_left_iff, List.forall₂_map_right_iff, List.forall₂_same]
  exact fun entry _ => ⟨rfl, file_read_as entry.2⟩

theorem includes_read (includes : IncludeMap) :
    Request.readIncludes (includesTree includes) = some includes := by
  have files : (includes.entries.map fun entry => (entry.1, fileTree entry.2)).mapM
      (fun entry => (Request.readFile entry.2).map fun file => (entry.1, file)) =
        some includes.entries := by
    simp only [List.mapM_map, Function.comp_def, file_read, Option.map_some]
    exact List.mapM_pure.trans (congrArg some (List.map_id _))
  have reading : Request.readIncludes (includesTree includes) =
      (includesTree includes).members?.bind fun members =>
        (members.mapM fun entry =>
          (Request.readFile entry.2).map fun file => (entry.1, file)).bind fun files =>
            some (KeyMap.ofList files) := rfl
  rw [reading, includesTree, members_of_spelled, Option.bind_some, files, Option.bind_some,
    of_entries]

end Files

section Requests

/-- What a request is read as. -/
def requestTree (request : Request) : Tree :=
  spelled [("language", .string (spelling request.language.tag)),
    ("optimize", .bool request.optimize),
    ("libraries", .string (spelling request.libraries)),
    ("entry", .string (spelling request.entry)),
    ("includes", includesTree request.includes)]

theorem request_read_as (request : Request) :
    ReadAs request.toValue.compact (requestTree request) :=
  object_read_as (.cons ⟨rfl, quoted_read_as request.language.tag⟩
    (.cons ⟨rfl, bool_read_as request.optimize⟩
      (.cons ⟨rfl, quoted_read_as request.libraries⟩
        (.cons ⟨rfl, quoted_read_as request.entry⟩
          (.cons ⟨rfl, includes_read_as request.includes⟩ .nil)))))

theorem language_read (language : Language) :
    Request.readLanguage (.string (spelling language.tag)) = some language := by
  have known : Language.ofTag? language.tag = some language := by
    cases language
    decide
  have reading : Request.readLanguage (.string (spelling language.tag)) =
      (Tree.string (spelling language.tag)).text?.bind Language.ofTag? := rfl
  rw [reading, text_of_spelling, Option.bind_some, known]

theorem request_read (request : Request) :
    Request.ofTree? (requestTree request) = some request := by
  have fields : (requestTree request).fields?
      ["language", "optimize", "libraries", "entry", "includes"] =
        some [some (.string (spelling request.language.tag)), some (.bool request.optimize),
          some (.string (spelling request.libraries)), some (.string (spelling request.entry)),
          some (includesTree request.includes)] := by
    rw [requestTree, fields_of_spelled]
    simp [Tree.field?]
  unfold Request.ofTree?
  rw [fields]
  simp only [Tree.required?, language_read, Tree.bool?, text_of_spelling, includes_read,
    Option.bind_eq_bind, Option.bind_some]
  rfl

/-- A request that is sent is received as it was: it has the same digest, asks for the same addresses to
be linked, and is sent on in the same bytes. -/
theorem sent_request_received (request : Request) :
    ∃ received, Request.ofWire? request.toWire = some received ∧ received = request ∧
      received.digest = request.digest ∧
      received.librariesArgument? = request.librariesArgument? ∧
      received.toWire = request.toWire := by
  refine ⟨request, ?_, rfl, rfl, rfl, rfl⟩
  rw [Request.ofWire?, Request.toWire, String.toList_ofList,
    parse_of_read_as (request_read_as request), Option.bind_some, request_read]

end Requests

end ContractBuild.WireForm
