import FipsExitGate.Fipsaddr.Strings
import Mathlib.Algebra.Group.Nat.Defs

/-!
# SHA-256

`sha256.Sum256` of the standard library, which mesh addresses are derived with.  Words
are `BitVec 32`, a block is a list of sixteen of them, and the loops of the algorithm are
folds, so that a digest can be evaluated.
-/

namespace FipsExitGate.Sha256

abbrev Word := BitVec 32

/-- The constants of the 64 rounds. -/
def roundConstants : List Word :=
  [0x428a2f98, 0x71374491, 0xb5c0fbcf, 0xe9b5dba5, 0x3956c25b, 0x59f111f1, 0x923f82a4, 0xab1c5ed5,
    0xd807aa98, 0x12835b01, 0x243185be, 0x550c7dc3, 0x72be5d74, 0x80deb1fe, 0x9bdc06a7, 0xc19bf174,
    0xe49b69c1, 0xefbe4786, 0x0fc19dc6, 0x240ca1cc, 0x2de92c6f, 0x4a7484aa, 0x5cb0a9dc, 0x76f988da,
    0x983e5152, 0xa831c66d, 0xb00327c8, 0xbf597fc7, 0xc6e00bf3, 0xd5a79147, 0x06ca6351, 0x14292967,
    0x27b70a85, 0x2e1b2138, 0x4d2c6dfc, 0x53380d13, 0x650a7354, 0x766a0abb, 0x81c2c92e, 0x92722c85,
    0xa2bfe8a1, 0xa81a664b, 0xc24b8b70, 0xc76c51a3, 0xd192e819, 0xd6990624, 0xf40e3585, 0x106aa070,
    0x19a4c116, 0x1e376c08, 0x2748774c, 0x34b0bcb5, 0x391c0cb3, 0x4ed8aa4a, 0x5b9cca4f, 0x682e6ff3,
    0x748f82ee, 0x78a5636f, 0x84c87814, 0x8cc70208, 0x90befffa, 0xa4506ceb, 0xbef9a3f7, 0xc67178f2]

/-- The working variables `a … h`, and the hash value between blocks. -/
structure Working where
  a : Word
  b : Word
  c : Word
  d : Word
  e : Word
  f : Word
  g : Word
  h : Word
  deriving DecidableEq, Repr

/-- The hash value before the first block. -/
def initial : Working :=
  ⟨0x6a09e667, 0xbb67ae85, 0x3c6ef372, 0xa54ff53a, 0x510e527f, 0x9b05688c, 0x1f83d9ab, 0x5be0cd19⟩

def Working.add (x y : Working) : Working :=
  ⟨x.a + y.a, x.b + y.b, x.c + y.c, x.d + y.d, x.e + y.e, x.f + y.f, x.g + y.g, x.h + y.h⟩

/-- One round, with its constant and its word of the schedule. -/
def round (v : Working) (k w : Word) : Working :=
  let t1 := v.h + (v.e.rotateRight 6 ^^^ v.e.rotateRight 11 ^^^ v.e.rotateRight 25) +
    ((v.e &&& v.f) ^^^ (~~~v.e &&& v.g)) + k + w
  let t2 := (v.a.rotateRight 2 ^^^ v.a.rotateRight 13 ^^^ v.a.rotateRight 22) +
    ((v.a &&& v.b) ^^^ (v.a &&& v.c) ^^^ (v.b &&& v.c))
  ⟨t1 + t2, v.a, v.b, v.c, v.d + t1, v.e, v.f, v.g⟩

/-- The schedule so far, newest word first, and one word more. -/
def extend (schedule : List Word) : List Word :=
  let v1 := schedule.getD 1 0
  let v2 := schedule.getD 14 0
  ((v1.rotateRight 17 ^^^ v1.rotateRight 19 ^^^ v1 >>> 10) + schedule.getD 6 0 +
    (v2.rotateRight 7 ^^^ v2.rotateRight 18 ^^^ v2 >>> 3) + schedule.getD 15 0) :: schedule

/-- `block`: the hash value after one more block. -/
def block (hash : Working) (words : List Word) : Working :=
  let schedule := ((List.range 48).foldl (fun ws _ => extend ws) words.reverse).reverse
  hash.add ((roundConstants.zip schedule).foldl (fun v kw => round v kw.1 kw.2) hash)

/-- The bytes as big-endian words. -/
def wordsOf : Bytes → List Word
  | b₀ :: b₁ :: b₂ :: b₃ :: rest =>
      (b₀.toBitVec ++ b₁.toBitVec ++ b₂.toBitVec ++ b₃.toBitVec : BitVec 32) :: wordsOf rest
  | _ => []

/-- The lowest `n` bytes of a number, big-endian. -/
def beBytes (n v : Nat) : Bytes :=
  (List.range n).map fun i => UInt8.ofNat (v / 256 ^ (n - 1 - i))

/-- The message with its padding: a one bit, zeros, and the length in bits. -/
def padded (msg : Bytes) : Bytes :=
  msg ++ 0x80 :: (List.replicate ((119 - msg.length % 64) % 64) 0 ++ beBytes 8 (8 * msg.length))

/-- The hash value after the first `n` blocks. -/
def blocks : Nat → List Word → Working → Working
  | 0, _, hash => hash
  | n + 1, words, hash => blocks n (words.drop 16) (block hash (words.take 16))

/-- `sha256.Sum256`. -/
def sum256 (msg : Bytes) : Bytes :=
  let bytes := padded msg
  let hash := blocks (bytes.length / 64) (wordsOf bytes) initial
  [hash.a, hash.b, hash.c, hash.d, hash.e, hash.f, hash.g, hash.h].flatMap fun w =>
    beBytes 4 w.toNat

end FipsExitGate.Sha256
