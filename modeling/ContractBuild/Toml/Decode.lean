import ContractBuild.Toml.Value

/-! Reading records and lists out of TOML values. Every reader answers nothing if the value is of
another kind. -/
namespace ContractBuild.Toml.Value

/-- The text of a string. -/
def text? : Value → Option String
  | string text => some text
  | _ => none

/-- The integer, if it is not negative. -/
def natural? : Value → Option Nat
  | integer n => if 0 ≤ n then some n.toNat else none
  | _ => none

/-- The truth value. -/
def bool? : Value → Option Bool
  | bool value => some value
  | _ => none

/-- Each item of an array, read by `read`. -/
def listOf? {α : Type} (read : Value → Option α) : Value → Option (List α)
  | array items => items.mapM read
  | _ => none

/-- What a record gives for each of its fields. A record is written as a table, where entries of
other names are passed over, or as an array that starts with the fields in order. A time is a record
that gives nothing. -/
def fields? (names : List String) : Value → Option (List (Option Value))
  | table entries =>
    some (names.map fun name => (entries.find? fun entry => entry.1 = name).map Prod.snd)
  | array items =>
    some ((items.take names.length).map some ++ List.replicate (names.length - items.length) none)
  | time => some (names.map fun _ => none)
  | _ => none

/-- A field that has to be given. -/
def required? {α : Type} (read : Value → Option α) : Option Value → Option α
  | some value => read value
  | none => none

/-- A field that has a value of its own when it is not given. -/
def withDefault? {α : Type} (default : α) (read : Value → Option α) : Option Value → Option α
  | some value => read value
  | none => some default

end ContractBuild.Toml.Value
