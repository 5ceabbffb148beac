import CodeAudit.Value.Display

/-!
# SHA-256 and SHA-512

One algorithm, with words of thirty-two or of sixty-four bits. Bytes are padded to whole blocks of sixteen words, each
block is spread to one word for each round, and each of these changes the eight words of the state.
-/

namespace CodeAudit

/-- What the digests differ in: the rounds, and how far words are turned, and shifted, where they are mixed. -/
structure Sha (width : Nat) where
  rounds : Nat
  ofA : List Nat
  ofE : List Nat
  ofOld : List Nat × Nat
  ofRecent : List Nat × Nat

namespace Sha

variable {width : Nat}

def primes : List Nat :=
  [2, 3, 5, 7, 11, 13, 17, 19, 23, 29, 31, 37, 41, 43, 47, 53, 59, 61, 67, 71, 73, 79, 83, 89, 97, 101, 103, 107, 109,
   113, 127, 131, 137, 139, 149, 151, 157, 163, 167, 173, 179, 181, 191, 193, 197, 199, 211, 223, 227, 229, 233, 239,
   241, 251, 257, 263, 269, 271, 277, 281, 283, 293, 307, 311, 313, 317, 331, 337, 347, 349, 353, 359, 367, 373, 379,
   383, 389, 397, 401, 409]

def placesOfRoot (power n : Nat) : Nat :=
  (List.range 67).foldr (fun i x => if (x + 2 ^ i) ^ power ≤ n * 2 ^ (64 * power) then x + 2 ^ i else x) 0 % 2 ^ 64

def cubeRoots : List Nat := primes.map (placesOfRoot 3)

def squareRoots : List Nat := (primes.take 8).map (placesOfRoot 2)

def wordOfPlaces (places : Nat) : BitVec width := .ofNat width (places / 2 ^ (64 - width))

structure State (width : Nat) where
  a : BitVec width
  b : BitVec width
  c : BitVec width
  d : BitVec width
  e : BitVec width
  f : BitVec width
  g : BitVec width
  h : BitVec width

def State.ofWords (words : List (BitVec width)) : State width :=
  let word (i : Nat) := words.getD i 0
  ⟨word 0, word 1, word 2, word 3, word 4, word 5, word 6, word 7⟩

def State.words (s : State width) : List (BitVec width) := [s.a, s.b, s.c, s.d, s.e, s.f, s.g, s.h]

def mixed (x : BitVec width) (turns : List Nat) (other : BitVec width) : BitVec width :=
  turns.foldl (fun y n => y ^^^ x.rotateRight n) other

def round (sha : Sha width) (s : State width) (k w : BitVec width) : State width :=
  let choice := (s.e &&& s.f) ^^^ (~~~s.e &&& s.g)
  let t := s.h + mixed s.e sha.ofE 0 + choice + k + w
  let majority := (s.a &&& s.b) ^^^ (s.a &&& s.c) ^^^ (s.b &&& s.c)
  ⟨t + mixed s.a sha.ofA 0 + majority, s.a, s.b, s.c, s.d + t, s.e, s.f, s.g⟩

def nextWord (sha : Sha width) (window : List (BitVec width)) : BitVec width :=
  let x := window.getD 1 0
  let y := window.getD 14 0
  window.headD 0 + mixed x sha.ofOld.1 (x >>> sha.ofOld.2) + window.getD 9 0 + mixed y sha.ofRecent.1 (y >>> sha.ofRecent.2)

def spread (sha : Sha width) : Nat → List (BitVec width) → List (BitVec width)
  | 0, window => window
  | n + 1, window => window.headD 0 :: spread sha n (window.drop 1 ++ [sha.nextWord window])

def compress (sha : Sha width) (s : State width) (block : List (BitVec width)) : State width :=
  let t := (cubeRoots.zip (sha.spread (sha.rounds - 16) block)).foldl (fun t (k, w) => sha.round t (wordOfPlaces k) w) s
  .ofWords (List.zipWith (· + ·) s.words t.words)

def bigEndian : Nat → Nat → List UInt8
  | 0, _ => []
  | n + 1, x => bigEndian n (x / 256) ++ [UInt8.ofNat x]

/-- The bytes with a one bit, zero bits and the length in bits, up to whole blocks for words of a width. -/
def padded (width : Nat) (bytes : List UInt8) : List UInt8 :=
  let zeros := (4 * width - 1 - width / 4 - bytes.length % (2 * width)) % (2 * width)
  bytes ++ [0x80] ++ List.replicate zeros 0 ++ bigEndian (width / 4) (bytes.length * 8)

def wordsOf : Nat → List UInt8 → List (BitVec width)
  | 0, _ => []
  | n + 1, bytes =>
    ((bytes.take (width / 8)).foldl (fun w b => w * 256 + .ofNat width b.toNat) 0) :: wordsOf n (bytes.drop (width / 8))

def digestBlocks (sha : Sha width) : Nat → State width → List (BitVec width) → State width
  | 0, s, _ => s
  | n + 1, s, words => digestBlocks sha n (sha.compress s (words.take 16)) (words.drop 16)

def digest (sha : Sha width) (bytes : List UInt8) : List (BitVec width) :=
  let all := padded width bytes
  let initial := State.ofWords (squareRoots.map wordOfPlaces)
  (sha.digestBlocks (all.length / (2 * width)) initial (wordsOf (all.length / (width / 8)) all)).words

end Sha

def Sha256.hex (s : String) : String :=
  let sha : Sha 32 := ⟨64, [2, 13, 22], [6, 11, 25], ([7, 18], 3), ([17, 19], 10)⟩
  Text.join "" ((sha.digest s.toUTF8.toList).map fun w => Text.hexPadded 8 w.toNat)

def Sha512.digest (bytes : List UInt8) : List UInt8 :=
  let sha : Sha 64 := ⟨80, [28, 34, 39], [14, 18, 41], ([1, 8], 7), ([19, 61], 6)⟩
  (sha.digest bytes).flatMap fun w => Sha.bigEndian 8 w.toNat

end CodeAudit
