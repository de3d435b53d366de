import ContractBuild.Text.Hex
import ContractBuild.Text.Utf8

/-! Metadata trailers. A compiler ends the code of a contract with a CBOR map about its sources and
the length of that map in two bytes. Code is hexadecimal text; its length is counted in the bytes of
its UTF-8 form, since nothing keeps other characters out. -/
namespace ContractBuild.Bytecode

/-- The number that hexadecimal digits write. A plus sign may come first. -/
def ofHexDigits? (text : List Char) : Option Nat :=
  let digits := match text with
    | '+' :: rest => rest
    | text => text
  if digits = [] then none
  else digits.foldlM (fun n c => (Text.hexValue? c).map fun value => 16 * n + value) 0

/-- The first bytes of a CBOR map with one, two or three entries. -/
def mapHeaders : List (List Char) := [['a', '1'], ['a', '2'], ['a', '3']]

/-- Whether a text starts with the header of a map, in either case. -/
def startsMap (text : List Char) : Bool :=
  match Text.cutAt? 2 text with
  | some (header, _) => mapHeaders.contains (header.map Char.toLower)
  | none => false

/-- The length of the trailer that code announces in its last two bytes, both included. It is zero
unless the announced map is not empty, lies within the code and starts as a map. -/
def trailerLength (code : List Char) : Nat :=
  let size := Text.byteLength code
  if size < 4 then 0
  else
    match (Text.cutAt? (size - 4) code).bind fun (_, tail) => ofHexDigits? tail with
    | none => 0
    | some count =>
      let total := (count + 2) * 2
      if count = 0 ∨ size < total then 0
      else
        match Text.cutAt? (size - total) code with
        | some (_, trailer) => if startsMap trailer then total else 0
        | none => 0

/-- Code without its last `length` bytes. Code that is shorter, and code where the cut would fall
within a character, stays as it is. -/
def dropEnd (length : Nat) (code : List Char) : List Char :=
  let size := Text.byteLength code
  if length = 0 ∨ size < length then code
  else
    match Text.cutAt? (size - length) code with
    | some (body, _) => body
    | none => code

end ContractBuild.Bytecode
