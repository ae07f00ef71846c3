import Corpora.Text.Hex

/-!
The hash function SHA-256.
-/

namespace Corpora.Sha256

structure State where
  a : UInt32
  b : UInt32
  c : UInt32
  d : UInt32
  e : UInt32
  f : UInt32
  g : UInt32
  h : UInt32

def initial : State :=
  ⟨0x6a09e667, 0xbb67ae85, 0x3c6ef372, 0xa54ff53a, 0x510e527f, 0x9b05688c, 0x1f83d9ab, 0x5be0cd19⟩

def roundConstants : List UInt32 :=
  [0x428a2f98, 0x71374491, 0xb5c0fbcf, 0xe9b5dba5, 0x3956c25b, 0x59f111f1, 0x923f82a4, 0xab1c5ed5,
   0xd807aa98, 0x12835b01, 0x243185be, 0x550c7dc3, 0x72be5d74, 0x80deb1fe, 0x9bdc06a7, 0xc19bf174,
   0xe49b69c1, 0xefbe4786, 0x0fc19dc6, 0x240ca1cc, 0x2de92c6f, 0x4a7484aa, 0x5cb0a9dc, 0x76f988da,
   0x983e5152, 0xa831c66d, 0xb00327c8, 0xbf597fc7, 0xc6e00bf3, 0xd5a79147, 0x06ca6351, 0x14292967,
   0x27b70a85, 0x2e1b2138, 0x4d2c6dfc, 0x53380d13, 0x650a7354, 0x766a0abb, 0x81c2c92e, 0x92722c85,
   0xa2bfe8a1, 0xa81a664b, 0xc24b8b70, 0xc76c51a3, 0xd192e819, 0xd6990624, 0xf40e3585, 0x106aa070,
   0x19a4c116, 0x1e376c08, 0x2748774c, 0x34b0bcb5, 0x391c0cb3, 0x4ed8aa4a, 0x5b9cca4f, 0x682e6ff3,
   0x748f82ee, 0x78a5636f, 0x84c87814, 0x8cc70208, 0x90befffa, 0xa4506ceb, 0xbef9a3f7, 0xc67178f2]

def rotate (word by_ : UInt32) : UInt32 := (word >>> by_) ||| (word <<< (32 - by_))

def wordOf (b₀ b₁ b₂ b₃ : UInt8) : UInt32 :=
  (b₀.toUInt32 <<< 24) ||| (b₁.toUInt32 <<< 16) ||| (b₂.toUInt32 <<< 8) ||| b₃.toUInt32

def wordsOf : Bytes → List UInt32
  | b₀ :: b₁ :: b₂ :: b₃ :: rest => wordOf b₀ b₁ b₂ b₃ :: wordsOf rest
  | _ => []

def extend (words : Array UInt32) : Array UInt32 :=
  let at_ (back : Nat) : UInt32 := words.getD (words.size - back) 0
  let older := at_ 15
  let newer := at_ 2
  let mixedOlder := rotate older 7 ^^^ rotate older 18 ^^^ (older >>> 3)
  let mixedNewer := rotate newer 17 ^^^ rotate newer 19 ^^^ (newer >>> 10)
  words.push (at_ 16 + mixedOlder + at_ 7 + mixedNewer)

def schedule (block : Bytes) : List UInt32 :=
  ((List.range 48).foldl (fun words _ => extend words) (wordsOf block).toArray).toList

def round (s : State) (constant word : UInt32) : State :=
  let mixedE := rotate s.e 6 ^^^ rotate s.e 11 ^^^ rotate s.e 25
  let choice := (s.e &&& s.f) ^^^ ((~~~ s.e) &&& s.g)
  let first := s.h + mixedE + choice + constant + word
  let mixedA := rotate s.a 2 ^^^ rotate s.a 13 ^^^ rotate s.a 22
  let majority := (s.a &&& s.b) ^^^ (s.a &&& s.c) ^^^ (s.b &&& s.c)
  ⟨first + (mixedA + majority), s.a, s.b, s.c, s.d + first, s.e, s.f, s.g⟩

def compress (s : State) (block : Bytes) : State :=
  let r := (roundConstants.zip (schedule block)).foldl
    (fun state (constant, word) => round state constant word) s
  ⟨s.a + r.a, s.b + r.b, s.c + r.c, s.d + r.d, s.e + r.e, s.f + r.f, s.g + r.g, s.h + r.h⟩

def blockSize : Nat := 64

def absorb (state : State) (bytes : Bytes) : State :=
  if _empty : bytes = [] then state
  else absorb (compress state (bytes.take blockSize)) (bytes.drop blockSize)
  termination_by bytes.length
  decreasing_by
    have long := List.length_pos_iff.mpr _empty
    simp only [List.length_drop, blockSize]
    omega

def lengthBytes (n : Nat) : Bytes :=
  (List.range 8).reverse.map fun place => UInt8.ofNat (n / Nat.pow 256 place % 256)

def padding (length : Nat) : Bytes :=
  0x80 :: (List.replicate ((119 - length % blockSize) % blockSize) 0 ++ lengthBytes (8 * length))

def wordBytes (word : UInt32) : Bytes :=
  [(word >>> 24).toUInt8, (word >>> 16).toUInt8, (word >>> 8).toUInt8, word.toUInt8]

def State.bytes (s : State) : Bytes :=
  [s.a, s.b, s.c, s.d, s.e, s.f, s.g, s.h].flatMap wordBytes

def digest (message : Bytes) : Bytes :=
  (absorb initial (message ++ padding message.length)).bytes

def hexDigest (message : Bytes) : String := Text.hex (digest message)

def hmac (key message : Bytes) : Bytes :=
  let short := if key.length > blockSize then digest key else key
  let filled := short ++ List.replicate (blockSize - short.length) 0
  digest (filled.map (· ^^^ 0x5c) ++ digest (filled.map (· ^^^ 0x36) ++ message))

end Corpora.Sha256
