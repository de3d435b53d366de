import ContractBuild.Text.Utf8

/-! A compact binary form for numbers, texts and lists. A small number is one byte; a larger one
follows a byte that tells its width. A text or list follows its length. Every reader takes what it
reads from the start of the bytes and gives the rest. -/
namespace ContractBuild.Codec

/-- Numbers below this are their own byte. -/
def firstTag : Nat := 251

/-- How many bytes follow a tag. -/
def tagWidth? (tag : Nat) : Option Nat :=
  if tag = 251 then some 2
  else if tag = 252 then some 4
  else if tag = 253 then some 8
  else if tag = 254 then some 16
  else none

/-- A number of at most sixteen bytes. -/
def number (n : Nat) : Bytes :=
  if n < firstTag then [UInt8.ofNat n]
  else if n < Bytes.capacity 2 then 251 :: Bytes.littleEndian 2 n
  else if n < Bytes.capacity 4 then 252 :: Bytes.littleEndian 4 n
  else if n < Bytes.capacity 8 then 253 :: Bytes.littleEndian 8 n
  else 254 :: Bytes.littleEndian 16 n

/-- Reads a number that is at most `width` bytes wide. A small number may be written wider than it
has to be. -/
def readNumber? (width : Nat) : Bytes → Option (Nat × Bytes)
  | [] => none
  | tag :: bytes =>
    if tag.toNat < firstTag then some (tag.toNat, bytes)
    else
      match tagWidth? tag.toNat with
      | none => none
      | some written =>
        if width < written then none
        else (Bytes.take? written bytes).map fun (digits, rest) => (Bytes.toNat digits, rest)

/-- The width of lengths. -/
def lengthWidth : Nat := 8

/-- A text. -/
def text (content : String) : Bytes :=
  let bytes := Text.utf8 content.toList
  number bytes.length ++ bytes

/-- Reads a text. -/
def readText? (bytes : Bytes) : Option (String × Bytes) :=
  match readNumber? lengthWidth bytes with
  | none => none
  | some (length, rest) =>
    match Bytes.take? length rest with
    | none => none
    | some (content, rest) => (Text.ofUtf8? content).map fun text => (String.ofList text, rest)

/-- A list of items that are each written by `item`. -/
def list {α : Type} (item : α → Bytes) (items : List α) : Bytes :=
  number items.length ++ items.flatMap item

/-- Reads `count` items. -/
def readItems? {α : Type} (readItem? : Bytes → Option (α × Bytes)) :
    (count : Nat) → Bytes → Option (List α × Bytes)
  | 0, bytes => some ([], bytes)
  | count + 1, bytes =>
    match readItem? bytes with
    | none => none
    | some (item, rest) =>
      match readItems? readItem? count rest with
      | none => none
      | some (items, rest) => some (item :: items, rest)

/-- Reads a list of items. -/
def readList? {α : Type} (readItem? : Bytes → Option (α × Bytes)) (bytes : Bytes) :
    Option (List α × Bytes) :=
  match readNumber? lengthWidth bytes with
  | none => none
  | some (count, rest) => readItems? readItem? count rest

end ContractBuild.Codec
