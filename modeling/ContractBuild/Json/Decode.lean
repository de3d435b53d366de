import ContractBuild.Json.Value

/-! Reading records, lists and maps out of JSON documents. Every reader is given a part of a
document and answers nothing if the part is of another kind. -/
namespace ContractBuild.Json.Tree

/-- The text of a string. -/
def text? : Tree → Option String
  | string raw => (unescape raw).map String.ofList
  | _ => none

/-- The truth value that is written. -/
def bool? : Tree → Option Bool
  | bool value => some value
  | _ => none

/-- Each item of an array, read by `read`. -/
def listOf? {α : Type} (read : Tree → Option α) : Tree → Option (List α)
  | array items => items.mapM read
  | _ => none

/-- The members of an object, their keys as texts. -/
def members? : Tree → Option (List (String × Tree))
  | object members => members.mapM fun (raw, tree) =>
    (unescape raw).map fun key => (String.ofList key, tree)
  | _ => none

/-- What the members of an object give for a name: nothing, or one part. A name given twice is
refused. -/
def field? (members : List (String × Tree)) (name : String) : Option (Option Tree) :=
  match members.filter fun member => member.1 = name with
  | [] => some none
  | [member] => some (some member.2)
  | _ => none

/-- What a record gives for each of its fields. A record is written as an object, where members of
other names are passed over, or as an array of the first fields in order. -/
def fields? (names : List String) : Tree → Option (List (Option Tree))
  | array items =>
    if items.length ≤ names.length then
      some (items.map some ++ List.replicate (names.length - items.length) none)
    else none
  | tree => (members? tree).bind fun members => names.mapM (field? members)

/-- A field that has to be given. -/
def required? {α : Type} (read : Tree → Option α) : Option Tree → Option α
  | some tree => read tree
  | none => none

/-- A field that has a value of its own when it is not given. -/
def withDefault? {α : Type} (default : α) (read : Tree → Option α) : Option Tree → Option α
  | some tree => read tree
  | none => some default

end ContractBuild.Json.Tree
