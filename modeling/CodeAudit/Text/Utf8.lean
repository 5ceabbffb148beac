import CodeAudit.Text.Basic

/-!
# Text from bytes

What is not UTF-8 is refused, left out, or replaced by the replacement character. The decoder knows for each first byte
how many bytes follow and which range the next one must lie in; a faulty sequence ends before the first byte that does
not fit, so every maximal faulty piece counts once. Reading a text file also turns the line ends `\r\n` and `\r` into
`\n`.
-/

namespace CodeAudit.Text

inductive OnBadBytes where
  | refuse
  | drop
  | mark
  deriving DecidableEq, Repr

/-- What follows the first byte of a character: how many bytes, the least and greatest value of the
first of them, and the bits that the first byte contributes. -/
def leadByte? (b : Nat) : Option (Nat × Nat × Nat × Nat) :=
  if b < 0x80 then some (0, 0, 0, b)
  else if 0xC2 ≤ b ∧ b ≤ 0xDF then some (1, 0x80, 0xBF, b - 0xC0)
  else if b = 0xE0 then some (2, 0xA0, 0xBF, 0)
  else if b = 0xED then some (2, 0x80, 0x9F, 0xD)
  else if 0xE1 ≤ b ∧ b ≤ 0xEF then some (2, 0x80, 0xBF, b - 0xE0)
  else if b = 0xF0 then some (3, 0x90, 0xBF, 0)
  else if b = 0xF4 then some (3, 0x80, 0x8F, 4)
  else if 0xF1 ≤ b ∧ b ≤ 0xF3 then some (3, 0x80, 0xBF, b - 0xF0)
  else none

/-- A character that is being read: bytes still owed, the range of the next one, the bits so far. -/
structure Pending where
  owed : Nat
  low : Nat
  high : Nat
  bits : Nat

/-- What stands for a faulty piece; none where it is refused. -/
def faultyPiece : OnBadBytes → Option (List Char)
  | .refuse => none
  | .drop => some []
  | .mark => some [Char.ofNat 0xFFFD]

/-- One byte: the characters it completes and the state after it. -/
def decodeByte (mode : OnBadBytes) (state : Option Pending) (b : Nat) : Option (List Char × Option Pending) :=
  let fresh := fun (before : List Char) =>
    match leadByte? b with
    | some (0, _, _, bits) => some (before ++ [Char.ofNat bits], none)
    | some (owed, low, high, bits) => some (before, some { owed, low, high, bits })
    | none => (faultyPiece mode).map fun piece => (before ++ piece, none)
  match state with
  | none => fresh []
  | some p =>
    if p.low ≤ b ∧ b ≤ p.high then
      let bits := p.bits * 64 + (b - 0x80)
      if p.owed ≤ 1 then some ([Char.ofNat bits], none)
      else some ([], some { owed := p.owed - 1, low := 0x80, high := 0xBF, bits })
    else (faultyPiece mode).bind fresh

def decodeFrom (mode : OnBadBytes) : Option Pending → List UInt8 → Option (List Char)
  | none, [] => some []
  | some _, [] => faultyPiece mode
  | state, b :: bs =>
    match decodeByte mode state b.toNat with
    | none => none
    | some (cs, state') => (decodeFrom mode state' bs).map (cs ++ ·)

def decode? (mode : OnBadBytes) (bytes : List UInt8) : Option String :=
  (decodeFrom mode none bytes).map String.ofList

def unifyLineEnds : List Char → List Char
  | [] => []
  | '\r' :: '\n' :: cs => '\n' :: unifyLineEnds cs
  | '\r' :: cs => '\n' :: unifyLineEnds cs
  | c :: cs => c :: unifyLineEnds cs

def base64Digit? (c : Char) : Option Nat :=
  "ABCDEFGHIJKLMNOPQRSTUVWXYZabcdefghijklmnopqrstuvwxyz0123456789+/".toList.idxOf? c

end CodeAudit.Text
