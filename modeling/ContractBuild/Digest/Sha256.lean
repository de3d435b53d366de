import ContractBuild.Bytes

/-! The SHA-256 hash: padding to whole blocks, the message schedule, and sixty-four rounds on eight
words for each block. -/
namespace ContractBuild.Sha256

/-- The eight chained words. -/
structure State where
  a : UInt32
  b : UInt32
  c : UInt32
  d : UInt32
  e : UInt32
  f : UInt32
  g : UInt32
  h : UInt32

/-- The fractional parts of the square roots of the first eight primes. -/
def State.initial : State :=
  ⟨0x6a09e667, 0xbb67ae85, 0x3c6ef372, 0xa54ff53a, 0x510e527f, 0x9b05688c, 0x1f83d9ab, 0x5be0cd19⟩

/-- The fractional parts of the cube roots of the first sixty-four primes. -/
def roundConstants : List UInt32 :=
  [0x428a2f98, 0x71374491, 0xb5c0fbcf, 0xe9b5dba5, 0x3956c25b, 0x59f111f1, 0x923f82a4, 0xab1c5ed5,
   0xd807aa98, 0x12835b01, 0x243185be, 0x550c7dc3, 0x72be5d74, 0x80deb1fe, 0x9bdc06a7, 0xc19bf174,
   0xe49b69c1, 0xefbe4786, 0x0fc19dc6, 0x240ca1cc, 0x2de92c6f, 0x4a7484aa, 0x5cb0a9dc, 0x76f988da,
   0x983e5152, 0xa831c66d, 0xb00327c8, 0xbf597fc7, 0xc6e00bf3, 0xd5a79147, 0x06ca6351, 0x14292967,
   0x27b70a85, 0x2e1b2138, 0x4d2c6dfc, 0x53380d13, 0x650a7354, 0x766a0abb, 0x81c2c92e, 0x92722c85,
   0xa2bfe8a1, 0xa81a664b, 0xc24b8b70, 0xc76c51a3, 0xd192e819, 0xd6990624, 0xf40e3585, 0x106aa070,
   0x19a4c116, 0x1e376c08, 0x2748774c, 0x34b0bcb5, 0x391c0cb3, 0x4ed8aa4a, 0x5b9cca4f, 0x682e6ff3,
   0x748f82ee, 0x78a5636f, 0x84c87814, 0x8cc70208, 0x90befffa, 0xa4506ceb, 0xbef9a3f7, 0xc67178f2]

/-- A word turned right by a number of bits below thirty-two. -/
def rotateRight (word : UInt32) (bits : UInt32) : UInt32 :=
  (word >>> bits) ||| (word <<< (32 - bits))

/-- One round, given the sum of its constant and its schedule word. -/
def round (s : State) (word : UInt32) : State :=
  let choice := (s.e &&& s.f) ^^^ (~~~s.e &&& s.g)
  let majority := (s.a &&& s.b) ^^^ (s.a &&& s.c) ^^^ (s.b &&& s.c)
  let upper := rotateRight s.e 6 ^^^ rotateRight s.e 11 ^^^ rotateRight s.e 25
  let lower := rotateRight s.a 2 ^^^ rotateRight s.a 13 ^^^ rotateRight s.a 22
  let first := s.h + upper + choice + word
  ⟨first + lower + majority, s.a, s.b, s.c, s.d + first, s.e, s.f, s.g⟩

/-- The number that four bytes write, highest byte first. -/
def bigEndianWord : Bytes → UInt32 :=
  List.foldl (fun word byte => (word <<< 8) ||| byte.toUInt32) 0

/-- A word as four bytes, highest byte first. -/
def wordBytes (word : UInt32) : Bytes :=
  [(word >>> 24).toUInt8, (word >>> 16).toUInt8, (word >>> 8).toUInt8, word.toUInt8]

/-- The bytes in pieces of `size`, the last one shorter if they do not divide evenly. -/
def chunks (size : Nat) (positive : 0 < size) (bytes : Bytes) : List Bytes :=
  match _shape : bytes with
  | [] => []
  | _ :: _ => bytes.take size :: chunks size positive (bytes.drop size)
termination_by bytes.length
decreasing_by
  subst _shape
  simp only [List.length_drop, List.length_cons]
  omega

/-- The next schedule word, from the word two, seven, fifteen and sixteen places back. -/
def nextWord (words : Array UInt32) : UInt32 :=
  let back (distance : Nat) := words.getD (words.size - distance) 0
  let early := back 15
  let late := back 2
  let sigma0 := rotateRight early 7 ^^^ rotateRight early 18 ^^^ (early >>> 3)
  let sigma1 := rotateRight late 17 ^^^ rotateRight late 19 ^^^ (late >>> 10)
  sigma1 + back 7 + sigma0 + back 16

/-- The sixty-four schedule words of a block. -/
def schedule (block : Bytes) : Array UInt32 :=
  let words := ((chunks 4 (by decide) block).map bigEndianWord).toArray
  (List.range 48).foldl (fun words _ => words.push (nextWord words)) words

/-- The state after one block. -/
def compress (s : State) (block : Bytes) : State :=
  let t := (List.zipWith (· + ·) roundConstants (schedule block).toList).foldl round s
  ⟨s.a + t.a, s.b + t.b, s.c + t.c, s.d + t.d, s.e + t.e, s.f + t.f, s.g + t.g, s.h + t.h⟩

/-- The message with a closing one bit, zeros up to eight bytes before the end of a block, and its
length in bits. -/
def pad (message : Bytes) : Bytes :=
  let zeros := (119 - message.length % 64) % 64
  message ++ 0x80 :: List.replicate zeros 0 ++ (Bytes.littleEndian 8 (8 * message.length)).reverse

/-- The thirty-two bytes of the hash. -/
def hash (message : Bytes) : Bytes :=
  let s := (chunks 64 (by decide) (pad message)).foldl compress State.initial
  [s.a, s.b, s.c, s.d, s.e, s.f, s.g, s.h].flatMap wordBytes

theorem length_hash (message : Bytes) : (hash message).length = 32 := rfl

end ContractBuild.Sha256
