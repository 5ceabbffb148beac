import CodeAudit.Digest.Sha

/-!
# Random choices and the Mersenne twister

A choice or a shuffle needs only a way to draw numbers below a bound.

The generator gives out words of 32 bits from a state of 624 of them. A whole number seeds it through its binary
digits, its sign aside; a number below a bound is drawn as just enough bits, again and again until it lies below the
bound.
-/

namespace CodeAudit.Random

/-! ## Choices -/

abbrev Draw (σ : Type) := Nat → StateM σ Nat

def choose {σ α : Type} (draw : Draw σ) (x : α) (xs : List α) : StateM σ α := do
  return (x :: xs).getD (← draw (xs.length + 1)) x

/-- Shuffles the elements up to a position, from that position down: each changes its place with one
at or before it. -/
def shuffleTo {σ α : Type} (draw : Draw σ) : Nat → Array α → StateM σ (Array α)
  | 0, xs => return xs
  | i + 1, xs => do
    let j ← draw (i + 2)
    shuffleTo draw i (xs.swapIfInBounds (i + 1) j)

def shuffle {σ α : Type} (draw : Draw σ) (xs : List α) : StateM σ (List α) := do
  return (← shuffleTo draw (xs.length - 1) xs.toArray).toList

/-! ## The generator -/

structure Twister where
  words : Array UInt32
  used : Nat

namespace Twister

def size : Nat := 624

def folded (w : UInt32) : UInt32 := w ^^^ (w >>> 30)

def startWords (seed : UInt32) : Array UInt32 :=
  (List.range (size - 1)).foldl (fun ws i =>
    ws.push (1812433253 * folded (ws.getD i 0) + UInt32.ofNat (i + 1))) #[seed]

/-- Moves to the next word; after the last comes the second, the first taking the last one's value. -/
def advance (ws : Array UInt32) (i : Nat) : Array UInt32 × Nat :=
  if size ≤ i + 1 then (ws.setIfInBounds 0 (ws.getD (size - 1) 0), 1) else (ws, i + 1)

def mixKey (key : Array UInt32) (state : Array UInt32 × Nat × Nat) : Array UInt32 × Nat × Nat :=
  let (ws, i, j) := state
  let w := (ws.getD i 0 ^^^ (folded (ws.getD (i - 1) 0) * 1664525)) + key.getD j 0 + UInt32.ofNat j
  let (ws, next) := advance (ws.setIfInBounds i w) i
  (ws, next, if key.size ≤ j + 1 then 0 else j + 1)

def mixPlaces (state : Array UInt32 × Nat) : Array UInt32 × Nat :=
  let (ws, i) := state
  let w := (ws.getD i 0 ^^^ (folded (ws.getD (i - 1) 0) * 1566083941)) - UInt32.ofNat i
  advance (ws.setIfInBounds i w) i

def digits (n : Nat) : List UInt32 :=
  (List.range (n.log2 / 32 + 1)).map fun i => UInt32.ofNat (n >>> (32 * i))

def ofSeed (seed : Int) : Twister :=
  let key := (digits seed.natAbs).toArray
  let (ws, i, _) := Nat.repeat (mixKey key) (max size key.size) (startWords 19650218, 1, 0)
  let (ws, _) := Nat.repeat mixPlaces (size - 1) (ws, i)
  { words := ws.setIfInBounds 0 0x80000000, used := size }

def twisted (ws : Array UInt32) : Array UInt32 :=
  (List.range size).foldl (fun ws k =>
    let y := (ws.getD k 0 &&& 0x80000000) ||| (ws.getD ((k + 1) % size) 0 &&& 0x7fffffff)
    let odd : UInt32 := if y &&& 1 == 0 then 0 else 0x9908b0df
    ws.setIfInBounds k (ws.getD ((k + 397) % size) 0 ^^^ (y >>> 1) ^^^ odd)) ws

def tempered (w : UInt32) : UInt32 :=
  let w := w ^^^ (w >>> 11)
  let w := w ^^^ ((w <<< 7) &&& 0x9d2c5680)
  let w := w ^^^ ((w <<< 15) &&& 0xefc60000)
  w ^^^ (w >>> 18)

def next : StateM Twister UInt32 := fun t =>
  let t := if size ≤ t.used then { words := twisted t.words, used := 0 } else t
  (tempered (t.words.getD t.used 0), { t with used := t.used + 1 })

/-- Draws numbers of so many bits until one lies below the bound, for at most so many tries; the last
resort, which no seed is known to reach, is zero. -/
def tryBelow (bits bound : Nat) : Nat → StateM Twister Nat
  | 0 => return 0
  | tries + 1 => do
    let n := (← next).toNat >>> (32 - bits)
    if n < bound then return n else tryBelow bits bound tries

def below (bound : Nat) : StateM Twister Nat := tryBelow (bound.log2 + 1) bound 1000

end Twister

end CodeAudit.Random

/-! ## Seeds

A generator is seeded by a whole number. A double stands for its residue by a Mersenne prime, so that equal numbers are
equal seeds, and a text for its bytes followed by their digest. -/

namespace CodeAudit.Random.Seed

def modulus : Nat := 2 ^ 61 - 1

/-- The residue of `m · 2^q`. Since `2^61` leaves one, the power counts by its residue by 61. -/
def residue (m : Nat) (q : Int) : Nat := m * 2 ^ (q.emod 61).toNat % modulus

/-- The word of sixty-four bits for a double, a negative residue being counted down from `2^64`. The
residue of minus one is taken by faults, and two stands in for it. -/
def ofDouble (x : Float) : Nat :=
  let signed := fun (negative : Bool) (n : Nat) =>
    if !negative || n == 0 then n else 2 ^ 64 - (if n == 1 then 2 else n)
  match Decimal.Parts.ofFloat x with
  | .notANumber => 0
  | .infinite negative => signed negative 314159
  | .finite negative m q => signed negative (residue m q)

def ofBytes (bytes : List UInt8) : Nat := bytes.foldl (fun n b => n * 256 + b.toNat) 0

def ofText (s : String) : Nat :=
  let bytes := s.toUTF8.toList
  ofBytes (bytes ++ Sha512.digest bytes)

/-- The whole number that a value stands for as a seed. Nothing at all leaves the generator as it is
at the start. -/
def number : Value → Except Fault Int
  | .null => .ok 0
  | .bool b => .ok (if b then 1 else 0)
  | .int n => .ok n
  | .float x | .estimate x => .ok (ofDouble x)
  | .str s => if Text.isEncodable s then .ok (ofText s) else .error .unencodable
  | _ => .error .wrongKind

end CodeAudit.Random.Seed
