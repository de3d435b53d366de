import ContractBuild.Toml.Value

/-! Tables while a document is read. A table knows how it came to be, because that decides what may
be added to it later: what a header or braces have stated is complete, what only the path of a
header has implied may still be stated, and what dotted keys have made takes more dotted keys. -/
namespace ContractBuild.Toml

/-- How a table came to be. -/
inductive Origin where
  | stated
  | implied
  | dotted
  deriving DecidableEq

/-- What a key of an unfinished table stands for. -/
inductive Node where
  | value (value : Value)
  | table (origin : Origin) (entries : List (String × Node))
  /-- Tables that share a key, last first. -/
  | tables (items : List (List (String × Node)))

/-- The entries of an unfinished table; each key occurs once. -/
abbrev Entries := List (String × Node)

namespace Entries

/-- What a key stands for. -/
def get? (entries : Entries) (key : String) : Option Node :=
  (entries.find? fun entry => entry.1 = key).map Prod.snd

/-- The entries with a key standing for something else. -/
def put (key : String) (node : Node) : Entries → Entries
  | [] => [(key, node)]
  | entry :: rest => if entry.1 = key then (key, node) :: rest else entry :: put key node rest

/-- Changes the table that a path of keys leads to. A key that stands for tables leads to the last
of them, and one that stands for nothing to a new table of the given origin. Dotted keys do not lead
into tables that are stated. -/
def descend (made : Origin) (change : Origin → Entries → Option Entries) :
    (path : List String) → (origin : Origin) → Entries → Option Entries
  | [], origin, entries => change origin entries
  | key :: path, _, entries =>
    match get? entries key with
    | none =>
      (descend made change path made []).map fun inner => put key (.table made inner) entries
    | some (.table origin inner) =>
      if made = .dotted ∧ origin = .stated then none
      else
        (descend made change path origin inner).map fun inner =>
          put key (.table origin inner) entries
    | some (.tables (last :: items)) =>
      (descend made change path .stated last).map fun last =>
        put key (.tables (last :: items)) entries
    | some _ => none

/-- Adds a value under a dotted key. The key has to be new, and a dotted key adds only to a table
that dotted keys have made. -/
def insert (path : List String) (key : String) (value : Value) (entries : Entries) :
    Option Entries :=
  descend .dotted
    (fun origin inner =>
      if (origin = .dotted) = (path = []) ∨ (get? inner key).isSome then none
      else some (put key (.value value) inner))
    path .stated entries

/-- Adds values under dotted keys, the last part of each key apart. -/
def insertAll (lines : List (List String × String × Value)) (entries : Entries) : Option Entries :=
  lines.foldlM (fun entries (path, key, value) => insert path key value entries) entries

/-- States the table that a header names, with the values that follow it. -/
def state (path : List String) (key : String) (lines : List (List String × String × Value))
    (entries : Entries) : Option Entries :=
  descend .implied
    (fun _ inner =>
      let stated (before : Entries) : Option Entries :=
        (insertAll lines before).map fun table => put key (.table .stated table) inner
      match get? inner key with
      | none => stated []
      | some (.table .implied before) => stated before
      | some _ => none)
    path .stated entries

/-- Adds one more table to those that share a key, with the values that follow its header. -/
def push (path : List String) (key : String) (lines : List (List String × String × Value))
    (entries : Entries) : Option Entries :=
  descend .implied
    (fun _ inner =>
      let pushed (before : List Entries) : Option Entries :=
        (insertAll lines []).map fun table => put key (.tables (table :: before)) inner
      match get? inner key with
      | none => pushed []
      | some (.tables before) => pushed before
      | some _ => none)
    path .stated entries

end Entries

namespace Node

mutual

/-- The value that a finished node stands for. -/
def toValue : Node → Value
  | value v => v
  | table _ entries => .table (toEntries entries)
  | tables items => .array (toTables items).reverse

/-- The entries of a finished table. -/
def toEntries : List (String × Node) → List (String × Value)
  | [] => []
  | (key, node) :: entries => (key, node.toValue) :: toEntries entries

/-- The values of finished tables. -/
def toTables : List (List (String × Node)) → List Value
  | [] => []
  | entries :: items => .table (toEntries entries) :: toTables items

end

end Node

end ContractBuild.Toml
