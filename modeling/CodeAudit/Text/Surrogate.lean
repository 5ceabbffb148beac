/-!
# Halves of characters

An escape can name one half of a surrogate pair without the other. Such a half is no character, yet it can be counted,
compared and written as an escape again; only bytes cannot hold it. A text keeps it as one of the last 2048 characters,
from `firstStandIn` on, which are for private use. These characters themselves are taken for halves wherever they occur.
-/

namespace CodeAudit.Text

def isHighSurrogate (n : Nat) : Bool := 0xD800 ≤ n && n ≤ 0xDBFF

def isLowSurrogate (n : Nat) : Bool := 0xDC00 ≤ n && n ≤ 0xDFFF

def isSurrogate (n : Nat) : Bool := 0xD800 ≤ n && n ≤ 0xDFFF

def joinSurrogates (high low : Nat) : Nat := 0x10000 + (high - 0xD800) * 0x400 + (low - 0xDC00)

def firstStandIn : Nat := 0x10F800

def loneSurrogate (n : Nat) : Char := Char.ofNat (firstStandIn + (n - 0xD800))

def surrogate? (c : Char) : Option Nat :=
  if firstStandIn ≤ c.toNat then some (0xD800 + (c.toNat - firstStandIn)) else none

/-- The character with a number; halves of pairs stand for themselves. Numbers that are no code points
have none. -/
def charOfNumber? (n : Nat) : Option Char :=
  if isSurrogate n then some (loneSurrogate n)
  else if n < 0x110000 then some (Char.ofNat n)
  else none

/-- Whether a text can be written as bytes: no half stands alone in it. -/
def isEncodable (s : String) : Bool := s.toList.all fun c => (surrogate? c).isNone

/-! ## Text from wide units

Text in units of two or of four bytes, the most or the least significant byte first. In units of two bytes a pair of
halves makes one character; a half without its partner is kept as it is. -/

inductive ByteOrder where
  | leastFirst
  | mostFirst
  deriving DecidableEq, Repr

def unitValue : ByteOrder → List UInt8 → Nat
  | .mostFirst, bytes => bytes.foldl (fun n b => n * 256 + b.toNat) 0
  | .leastFirst, bytes => bytes.foldr (fun b n => n * 256 + b.toNat) 0

def pairUnits? (order : ByteOrder) : List UInt8 → Option (List Nat)
  | [] => some []
  | a :: b :: rest => (pairUnits? order rest).map (unitValue order [a, b] :: ·)
  | _ => none

def quadUnits? (order : ByteOrder) : List UInt8 → Option (List Nat)
  | [] => some []
  | a :: b :: c :: d :: rest => (quadUnits? order rest).map (unitValue order [a, b, c, d] :: ·)
  | _ => none

def charsOfPairs : List Nat → List Char
  | [] => []
  | [n] => (charOfNumber? n).toList
  | n :: m :: rest =>
    if isHighSurrogate n && isLowSurrogate m then Char.ofNat (joinSurrogates n m) :: charsOfPairs rest
    else (charOfNumber? n).toList ++ charsOfPairs (m :: rest)

def decodePairs? (order : ByteOrder) (bytes : List UInt8) : Option String :=
  (pairUnits? order bytes).map fun ns => String.ofList (charsOfPairs ns)

def decodeQuads? (order : ByteOrder) (bytes : List UInt8) : Option String :=
  (quadUnits? order bytes).bind fun ns => (ns.mapM charOfNumber?).map String.ofList

end CodeAudit.Text
