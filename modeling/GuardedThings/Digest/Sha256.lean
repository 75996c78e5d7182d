/-!
# SHA-256

The digest of a sequence of bytes: the message is padded to blocks of 64
bytes, each block is expanded to 64 words, and 64 rounds per block stir the
eight words of the state. The first eight bytes of the digest of a value's
compact text identify its content.
-/

set_option autoImplicit false

namespace GuardedThings.Sha256

/-- The eight words that the rounds stir. -/
structure State where
  a : UInt32
  b : UInt32
  c : UInt32
  d : UInt32
  e : UInt32
  f : UInt32
  g : UInt32
  h : UInt32

/-- The state before the first block: square roots of the first eight primes. -/
def start : State :=
  ⟨0x6a09e667, 0xbb67ae85, 0x3c6ef372, 0xa54ff53a, 0x510e527f, 0x9b05688c, 0x1f83d9ab, 0x5be0cd19⟩

/-- The round constants: cube roots of the first 64 primes. -/
def roundConstants : List UInt32 :=
  [0x428a2f98, 0x71374491, 0xb5c0fbcf, 0xe9b5dba5, 0x3956c25b, 0x59f111f1, 0x923f82a4, 0xab1c5ed5,
   0xd807aa98, 0x12835b01, 0x243185be, 0x550c7dc3, 0x72be5d74, 0x80deb1fe, 0x9bdc06a7, 0xc19bf174,
   0xe49b69c1, 0xefbe4786, 0x0fc19dc6, 0x240ca1cc, 0x2de92c6f, 0x4a7484aa, 0x5cb0a9dc, 0x76f988da,
   0x983e5152, 0xa831c66d, 0xb00327c8, 0xbf597fc7, 0xc6e00bf3, 0xd5a79147, 0x06ca6351, 0x14292967,
   0x27b70a85, 0x2e1b2138, 0x4d2c6dfc, 0x53380d13, 0x650a7354, 0x766a0abb, 0x81c2c92e, 0x92722c85,
   0xa2bfe8a1, 0xa81a664b, 0xc24b8b70, 0xc76c51a3, 0xd192e819, 0xd6990624, 0xf40e3585, 0x106aa070,
   0x19a4c116, 0x1e376c08, 0x2748774c, 0x34b0bcb5, 0x391c0cb3, 0x4ed8aa4a, 0x5b9cca4f, 0x682e6ff3,
   0x748f82ee, 0x78a5636f, 0x84c87814, 0x8cc70208, 0x90befffa, 0xa4506ceb, 0xbef9a3f7, 0xc67178f2]

/-- Rotates a word to the right. -/
def rotate (x n : UInt32) : UInt32 := (x >>> n) ||| (x <<< (32 - n))

/-- Word `i` of a message, most significant byte first. -/
def wordAt (message : Array UInt8) (i : Nat) : UInt32 :=
  let byte (j : Nat) : UInt32 := (message.getD (4 * i + j) 0).toUInt32
  (byte 0 <<< 24) ||| (byte 1 <<< 16) ||| (byte 2 <<< 8) ||| byte 3

/-- Appends word `i` of the schedule, made from earlier ones. -/
def extend (schedule : Array UInt32) (i : Nat) : Array UInt32 :=
  let earlier (n : Nat) : UInt32 := schedule.getD (i - n) 0
  let x := earlier 15
  let y := earlier 2
  let s0 := rotate x 7 ^^^ rotate x 18 ^^^ (x >>> 3)
  let s1 := rotate y 17 ^^^ rotate y 19 ^^^ (y >>> 10)
  schedule.push (earlier 16 + s0 + earlier 7 + s1)

/-- The 64 words of a block: its own sixteen and 48 made from them. -/
def schedule (message : Array UInt8) (block : Nat) : Array UInt32 :=
  let own := ((List.range 16).map fun i => wordAt message (16 * block + i)).toArray
  (List.range' 16 48).foldl extend own

/-- One round with a word of the schedule and its constant. -/
def round (s : State) (word constant : UInt32) : State :=
  let s1 := rotate s.e 6 ^^^ rotate s.e 11 ^^^ rotate s.e 25
  let choice := (s.e &&& s.f) ^^^ (~~~s.e &&& s.g)
  let t1 := s.h + s1 + choice + constant + word
  let s0 := rotate s.a 2 ^^^ rotate s.a 13 ^^^ rotate s.a 22
  let majority := (s.a &&& s.b) ^^^ (s.a &&& s.c) ^^^ (s.b &&& s.c)
  ⟨t1 + (s0 + majority), s.a, s.b, s.c, s.d + t1, s.e, s.f, s.g⟩

/-- Stirs one block into the state. -/
def compress (message : Array UInt8) (s : State) (block : Nat) : State :=
  let t := ((schedule message block).toList.zip roundConstants).foldl
    (fun t (word, constant) => round t word constant) s
  ⟨s.a + t.a, s.b + t.b, s.c + t.c, s.d + t.d, s.e + t.e, s.f + t.f, s.g + t.g, s.h + t.h⟩

/-- The bytes of a 64-bit word, most significant first. -/
def wordBytes (n : UInt64) : List UInt8 :=
  [56, 48, 40, 32, 24, 16, 8, 0].map fun (shift : UInt64) => (n >>> shift).toUInt8

/-- The message with a set bit, zeros and its length in bits appended, in whole blocks. -/
def pad (bytes : Array UInt8) : Array UInt8 :=
  let zeros := (119 - bytes.size % 64) % 64
  bytes ++ (0x80 :: List.replicate zeros 0).toArray ++ (wordBytes (8 * bytes.size).toUInt64).toArray

/-- The state after all blocks of a message. -/
def digest (bytes : Array UInt8) : State :=
  let message := pad bytes
  (List.range (message.size / 64)).foldl (compress message) start

/-- The first eight bytes of the digest. -/
def firstBytes (s : State) : List UInt8 :=
  wordBytes ((s.a.toUInt64 <<< 32) ||| s.b.toUInt64)

end GuardedThings.Sha256
