import ContractBuild.Bytes

/-! The 128-bit XXH3 checksum without a seed. Short messages are mixed directly; messages of more
than 240 bytes run through eight accumulators in stripes of sixty-four bytes. -/
namespace ContractBuild.Xxh3

/-- The key that the message is mixed with. -/
def secret : Array UInt8 :=
  #[0xb8, 0xfe, 0x6c, 0x39, 0x23, 0xa4, 0x4b, 0xbe, 0x7c, 0x01, 0x81, 0x2c, 0xf7, 0x21, 0xad, 0x1c,
    0xde, 0xd4, 0x6d, 0xe9, 0x83, 0x90, 0x97, 0xdb, 0x72, 0x40, 0xa4, 0xa4, 0xb7, 0xb3, 0x67, 0x1f,
    0xcb, 0x79, 0xe6, 0x4e, 0xcc, 0xc0, 0xe5, 0x78, 0x82, 0x5a, 0xd0, 0x7d, 0xcc, 0xff, 0x72, 0x21,
    0xb8, 0x08, 0x46, 0x74, 0xf7, 0x43, 0x24, 0x8e, 0xe0, 0x35, 0x90, 0xe6, 0x81, 0x3a, 0x26, 0x4c,
    0x3c, 0x28, 0x52, 0xbb, 0x91, 0xc3, 0x00, 0xcb, 0x88, 0xd0, 0x65, 0x8b, 0x1b, 0x53, 0x2e, 0xa3,
    0x71, 0x64, 0x48, 0x97, 0xa2, 0x0d, 0xf9, 0x4e, 0x38, 0x19, 0xef, 0x46, 0xa9, 0xde, 0xac, 0xd8,
    0xa8, 0xfa, 0x76, 0x3f, 0xe3, 0x9c, 0x34, 0x3f, 0xf9, 0xdc, 0xbb, 0xc7, 0xc7, 0x0b, 0x4f, 0x1d,
    0x8a, 0x51, 0xe0, 0x4b, 0xcd, 0xb4, 0x59, 0x31, 0xc8, 0x9f, 0x7e, 0xc9, 0xd9, 0x78, 0x73, 0x64,
    0xea, 0xc5, 0xac, 0x83, 0x34, 0xd3, 0xeb, 0xc3, 0xc5, 0x81, 0xa0, 0xff, 0xfa, 0x13, 0x63, 0xeb,
    0x17, 0x0d, 0xdd, 0x51, 0xb7, 0xf0, 0xda, 0x49, 0xd3, 0x16, 0x55, 0x26, 0x29, 0xd4, 0x68, 0x9e,
    0x2b, 0x16, 0xbe, 0x58, 0x7d, 0x47, 0xa1, 0xfc, 0x8f, 0xf8, 0xb8, 0xd1, 0x7a, 0xd0, 0x31, 0xce,
    0x45, 0xcb, 0x3a, 0x8f, 0x95, 0x16, 0x04, 0x28, 0xaf, 0xd7, 0xfb, 0xca, 0xbb, 0x4b, 0x40, 0x7e]

def prime32A : UInt64 := 0x9E3779B1
def prime32B : UInt64 := 0x85EBCA77
def prime32C : UInt64 := 0xC2B2AE3D
def prime64A : UInt64 := 0x9E3779B185EBCA87
def prime64B : UInt64 := 0xC2B2AE3D27D4EB4F
def prime64C : UInt64 := 0x165667B19E3779F9
def prime64D : UInt64 := 0x85EBCA77C2B2AE63
def prime64E : UInt64 := 0x27D4EB2F165667C5

/-- The number in `width` bytes from a position on, lowest byte first; bytes past the end are
zero. -/
def wordAt (width : Nat) (bytes : Array UInt8) (position : Nat) : UInt64 :=
  (List.range width).foldr
    (fun i word => (word <<< 8) ||| (bytes.getD (position + i) 0).toUInt64) 0

/-- The 64-bit word of the message or the key at a position. -/
def word64 (bytes : Array UInt8) (position : Nat) : UInt64 := wordAt 8 bytes position

/-- The 32-bit word of the message or the key at a position. -/
def word32 (bytes : Array UInt8) (position : Nat) : UInt64 := wordAt 4 bytes position

/-- The low and the high half of the 128-bit product of two words. -/
def product (x y : UInt64) : UInt64 × UInt64 :=
  let n := x.toNat * y.toNat
  (UInt64.ofNat n, UInt64.ofNat (n / Bytes.capacity 8))

/-- The halves of the product, combined. -/
def fold (x y : UInt64) : UInt64 := (product x y).1 ^^^ (product x y).2

/-- The lower thirty-two bits of a word. -/
def lowHalf (word : UInt64) : UInt64 := word &&& 0xFFFFFFFF

/-- The bytes of a word of `width` bytes in the opposite order. -/
def swapBytes (width : Nat) (word : UInt64) : UInt64 :=
  UInt64.ofNat (Bytes.toNat (Bytes.littleEndian width word.toNat).reverse)

/-- Spreads the bits of a word that came out of a product. -/
def avalanche (h : UInt64) : UInt64 :=
  let h := (h ^^^ (h >>> 37)) * 0x165667919E3779F9
  h ^^^ (h >>> 32)

/-- Spreads the bits of a word that was only keyed. -/
def strongAvalanche (h : UInt64) : UInt64 :=
  let h := (h ^^^ (h >>> 33)) * prime64B
  let h := (h ^^^ (h >>> 29)) * prime64C
  h ^^^ (h >>> 32)

/-- The two words of a checksum, lower half first. -/
abbrev Pair := UInt64 × UInt64

/-- The checksum of the empty message. -/
def ofEmpty : Pair :=
  (strongAvalanche (word64 secret 64 ^^^ word64 secret 72),
    strongAvalanche (word64 secret 80 ^^^ word64 secret 88))

/-- The checksum of one to three bytes. -/
def ofTiny (m : Array UInt8) : Pair :=
  let size := m.size
  let byte (i : Nat) : UInt64 := (m.getD i 0).toUInt64
  let low := (byte 0 <<< 16) ||| (byte (size / 2) <<< 24) ||| byte (size - 1) |||
    (UInt64.ofNat size <<< 8)
  let swapped := swapBytes 4 low
  let high := lowHalf ((swapped <<< 13) ||| (swapped >>> 19))
  (strongAvalanche (low ^^^ (word32 secret 0 ^^^ word32 secret 4)),
    strongAvalanche (high ^^^ (word32 secret 8 ^^^ word32 secret 12)))

/-- The checksum of four to eight bytes. -/
def ofShort (m : Array UInt8) : Pair :=
  let size := m.size
  let input := word32 m 0 + (word32 m (size - 4) <<< 32)
  let keyed := input ^^^ (word64 secret 16 ^^^ word64 secret 24)
  let (low, high) := product keyed (prime64A + (UInt64.ofNat size <<< 2))
  let high := high + (low <<< 1)
  let low := low ^^^ (high >>> 3)
  let low := (low ^^^ (low >>> 35)) * 0x9FB21C651E98DF25
  (low ^^^ (low >>> 28), avalanche high)

/-- The checksum of nine to sixteen bytes. -/
def ofMedium (m : Array UInt8) : Pair :=
  let size := m.size
  let inputLow := word64 m 0
  let inputHigh := word64 m (size - 8)
  let flipLow := word64 secret 32 ^^^ word64 secret 40
  let flipHigh := word64 secret 48 ^^^ word64 secret 56
  let (low, high) := product (inputLow ^^^ inputHigh ^^^ flipLow) prime64A
  let low := low + (UInt64.ofNat (size - 1) <<< 54)
  let keyed := inputHigh ^^^ flipHigh
  let high := high + keyed + lowHalf keyed * (prime32B - 1)
  let low := low ^^^ swapBytes 8 high
  let (resultLow, resultHigh) := product low prime64B
  (avalanche resultLow, avalanche (resultHigh + high * prime64B))

/-- Sixteen bytes of the message against sixteen of the key. -/
def mix (m : Array UInt8) (position key : Nat) : UInt64 :=
  fold (word64 m position ^^^ word64 secret key)
    (word64 m (position + 8) ^^^ word64 secret (key + 8))

/-- Adds two pieces of sixteen bytes to the running pair. -/
def mixPair (m : Array UInt8) (acc : Pair) (first second key : Nat) : Pair :=
  let low := (acc.1 + mix m first key) ^^^ (word64 m second + word64 m (second + 8))
  let high := (acc.2 + mix m second (key + 16)) ^^^ (word64 m first + word64 m (first + 8))
  (low, high)

/-- The checksum that a running pair ends in. -/
def finishPair (size : UInt64) (acc : Pair) : Pair :=
  (avalanche (acc.1 + acc.2),
    0 - avalanche (acc.1 * prime64A + acc.2 * prime64D + size * prime64B))

/-- The checksum of 17 to 128 bytes: pieces from both ends, the innermost first. -/
def ofPieces (m : Array UInt8) : Pair :=
  let size := m.size
  let inner := [3, 2, 1, 0].filter fun i => i = 0 ∨ 32 * i < size
  let step (acc : Pair) (i : Nat) := mixPair m acc (16 * i) (size - 16 * (i + 1)) (32 * i)
  finishPair (UInt64.ofNat size) (inner.foldl step (UInt64.ofNat size * prime64A, 0))

/-- The checksum of 129 to 240 bytes: pieces in order, the running pair spread after the fourth. -/
def ofSpan (m : Array UInt8) : Pair :=
  let size := m.size
  let acc : Pair := (List.range 4).foldl
    (fun acc i => mixPair m acc (32 * i) (32 * i + 16) (32 * i)) (UInt64.ofNat size * prime64A, 0)
  let acc : Pair := (avalanche acc.1, avalanche acc.2)
  let acc : Pair := (List.range (size / 32 - 4)).foldl
    (fun acc i => mixPair m acc (32 * i + 128) (32 * i + 144) (32 * i + 3)) acc
  finishPair (UInt64.ofNat size) (mixPair m acc (size - 16) (size - 32) 103)

/-- The eight running words of a long message. -/
abbrev Lanes := List UInt64

/-- The running words before the first stripe. -/
def Lanes.initial : Lanes :=
  [prime32C, prime64A, prime64B, prime64C, prime64D, prime32B, prime64E, prime32A]

/-- Adds one stripe of sixty-four bytes, keyed from a position of the key on. -/
def accumulate (m : Array UInt8) (position key : Nat) (lanes : Lanes) : Lanes :=
  List.mapIdx (fun i (lane : UInt64) =>
    let keyed : UInt64 := word64 m (position + 8 * i) ^^^ word64 secret (key + 8 * i)
    let partner := if i % 2 = 0 then i + 1 else i - 1
    lane + word64 m (position + 8 * partner) + lowHalf keyed * (keyed >>> 32)) lanes

/-- Stirs the running words at the end of a block. -/
def scramble (lanes : Lanes) : Lanes :=
  List.mapIdx (fun i (lane : UInt64) =>
    ((lane ^^^ (lane >>> 47)) ^^^ word64 secret (128 + 8 * i)) * prime32A) lanes

/-- Adds consecutive stripes, the key moving on by eight bytes for each. -/
def stripes (m : Array UInt8) (position count : Nat) (lanes : Lanes) : Lanes :=
  (List.range count).foldl (fun lanes n => accumulate m (position + 64 * n) (8 * n) lanes) lanes

/-- Combines the running words, keyed from a position of the key on. -/
def merge (lanes : Lanes) (key : Nat) (start : UInt64) : UInt64 :=
  let pairs := (List.range 4).map fun i =>
    fold (lanes.getD (2 * i) 0 ^^^ word64 secret (key + 16 * i))
      (lanes.getD (2 * i + 1) 0 ^^^ word64 secret (key + 16 * i + 8))
  avalanche (pairs.foldl (· + ·) start)

/-- The checksum of more than 240 bytes: whole blocks of sixteen stripes, the stripes left over, and
the last sixty-four bytes once more. -/
def ofLong (m : Array UInt8) : Pair :=
  let size := m.size
  let blocks := (size - 1) / 1024
  let lanes := (List.range blocks).foldl
    (fun lanes n => scramble (stripes m (1024 * n) 16 lanes)) Lanes.initial
  let lanes := stripes m (1024 * blocks) ((size - 1 - 1024 * blocks) / 64) lanes
  let lanes := accumulate m (size - 64) 121 lanes
  let length := UInt64.ofNat size
  (merge lanes 11 (length * prime64A), merge lanes 117 (~~~(length * prime64B)))

/-- The two words of the checksum of a message. -/
def pair (m : Array UInt8) : Pair :=
  if m.size = 0 then ofEmpty
  else if m.size ≤ 3 then ofTiny m
  else if m.size ≤ 8 then ofShort m
  else if m.size ≤ 16 then ofMedium m
  else if m.size ≤ 128 then ofPieces m
  else if m.size ≤ 240 then ofSpan m
  else ofLong m

/-- The checksum as one number of sixteen bytes. -/
def checksum (message : Bytes) : Nat :=
  let (low, high) := pair message.toArray
  low.toNat + Bytes.capacity 8 * high.toNat

theorem checksum_lt (message : Bytes) : checksum message < Bytes.capacity 16 := by
  have low := (pair message.toArray).1.toNat_lt
  have high := (pair message.toArray).2.toNat_lt
  simp only [checksum, Bytes.capacity]
  omega

end ContractBuild.Xxh3
