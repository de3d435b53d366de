/-! Finite maps from texts, kept in ascending order of their keys, so that equal maps have equal
entries. -/
namespace ContractBuild

/-- A map from texts. The order of keys is that of their UTF-8 forms, which is the order of their
code points. -/
structure KeyMap (α : Type) where
  entries : List (String × α)
  ascending : entries.Pairwise fun a b => a.1 < b.1
  deriving DecidableEq

namespace KeyMap

variable {α : Type}

/-- The map without keys. -/
def empty : KeyMap α := ⟨[], List.Pairwise.nil⟩

instance : Inhabited (KeyMap α) := ⟨empty⟩

/-- What a key is mapped to. -/
def get? (map : KeyMap α) (key : String) : Option α :=
  (map.entries.find? fun entry => entry.1 = key).map Prod.snd

/-- The number of keys. -/
def size (map : KeyMap α) : Nat := map.entries.length

/-- The keys in ascending order. -/
def keys (map : KeyMap α) : List String := map.entries.map Prod.fst

/-- Entries with one key mapped to a value, in its place in the order. -/
def place (key : String) (value : α) : List (String × α) → List (String × α)
  | [] => [(key, value)]
  | entry :: rest =>
    if key < entry.1 then (key, value) :: entry :: rest
    else if key = entry.1 then (key, value) :: rest
    else entry :: place key value rest

theorem mem_place {key : String} {value : α} {entries : List (String × α)} {entry : String × α}
    (found : entry ∈ place key value entries) : entry = (key, value) ∨ entry ∈ entries := by
  induction entries with
  | nil => simpa [place] using found
  | cons head rest ih =>
    simp only [place] at found
    split at found
    · simpa using found
    · split at found
      · rcases List.mem_cons.mp found with rfl | inside
        · exact Or.inl rfl
        · exact Or.inr (List.mem_cons_of_mem _ inside)
      · rcases List.mem_cons.mp found with rfl | inside
        · exact Or.inr (List.mem_cons_self ..)
        · rcases ih inside with rfl | inside
          · exact Or.inl rfl
          · exact Or.inr (List.mem_cons_of_mem _ inside)

theorem place_ascending (key : String) (value : α) {entries : List (String × α)}
    (ascending : entries.Pairwise fun a b => a.1 < b.1) :
    (place key value entries).Pairwise fun a b => a.1 < b.1 := by
  induction entries with
  | nil => simp [place]
  | cons head rest ih =>
    obtain ⟨first, others⟩ := List.pairwise_cons.mp ascending
    simp only [place]
    split
    · rename_i before
      refine List.pairwise_cons.mpr ⟨?_, ascending⟩
      intro entry inside
      rcases List.mem_cons.mp inside with rfl | inside
      · exact before
      · exact String.lt_trans before (first entry inside)
    · rename_i after
      split
      · rename_i same
        refine List.pairwise_cons.mpr ⟨?_, others⟩
        intro entry inside
        simpa [same] using first entry inside
      · rename_i different
        refine List.pairwise_cons.mpr ⟨?_, ih others⟩
        intro entry inside
        rcases mem_place inside with rfl | inside
        · rcases Classical.em (head.1 < key) with later | level
          · exact later
          · exact absurd (String.le_antisymm level after) different
        · exact first entry inside

/-- The map with a key mapped to a value, whatever it was mapped to. -/
def insert (map : KeyMap α) (key : String) (value : α) : KeyMap α :=
  ⟨place key value map.entries, place_ascending key value map.ascending⟩

/-- The map with a key mapped to a value, unless it is mapped already. -/
def insertNew (map : KeyMap α) (key : String) (value : α) : KeyMap α :=
  match map.get? key with
  | some _ => map
  | none => map.insert key value

/-- The map of pairs given in any order; the last pair with a key counts. -/
def ofList (pairs : List (String × α)) : KeyMap α :=
  pairs.foldl (fun map pair => map.insert pair.1 pair.2) empty

end KeyMap

end ContractBuild
