import CodeAudit.Json.Writer
import CodeAudit.Text.Utf8

/-!
# Reading JSON

JSON with the usual extensions for numbers that are not finite. The reader works on the remaining characters; a stop
carries how many remained, and `read` turns that into an offset. Of two fields with one name the later value counts, at
the place of the earlier one. Nesting and the digits of whole numbers have bounds, beyond which a document is refused.
-/

namespace CodeAudit.Json

open Text

abbrev Input := List Char

inductive Stop where
  | before (remaining : Nat)
  | beyond (fault : Fault)

def isGap (c : Char) : Bool := c == ' ' || c == '\t' || c == '\n' || c == '\r'

variable (cs : Input) (bytes : List UInt8)

def skipGaps : Input := cs.dropWhile isGap

/-! ## Texts -/

def hexUnit? : Option Nat :=
  match (cs.take 4).mapM hexDigit? with
  | some [a, b, c, d] => some (((a * 16 + b) * 16 + c) * 16 + d)
  | _ => none

def escapeChar? : Char → Option Char
  | '"' => some '"'
  | '\\' => some '\\'
  | '/' => some '/'
  | 'b' => some '\x08'
  | 'f' => some '\x0c'
  | 'n' => some '\n'
  | 'r' => some '\r'
  | 't' => some '\t'
  | _ => none

/-- An escape of four digits, after `\u`: the character and how many further characters it takes.
A high unit with a low unit in a second escape is one character; the first fault is that of the
digits at hand. -/
def readUnit : Except Stop (Char × Nat) :=
  match hexUnit? cs with
  | none => .error (.before (cs.length + 1))
  | some high =>
    -- a text must go on after the digits, if only to be closed
    if (cs.drop 4).isEmpty then .error (.before (cs.length + 1))
    else if isHighSurrogate high && !(cs.drop 10).isEmpty && (cs.drop 4).take 2 == ['\\', 'u'] then
      match hexUnit? (cs.drop 6) with
      | none => .error (.before (cs.length - 5))
      | some low =>
        if isLowSurrogate low then .ok (Char.ofNat (joinSurrogates high low), 10)
        else .ok (loneSurrogate high, 4)
    else if isSurrogate high then .ok (loneSurrogate high, 4)
    else .ok (Char.ofNat high, 4)

/-- The rest of a text after its opening quote; `opening` is the input from that quote on, and
`skip` counts characters of an escape that are still to be passed over. -/
def readTextFrom (opening : Input) : Nat → List Char → Input → Except Stop (String × Input)
  | _, _, [] => .error (.before opening.length)
  | skip + 1, acc, _ :: cs => readTextFrom opening skip acc cs
  | 0, acc, '"' :: cs => .ok (String.ofList acc.reverse, cs)
  | 0, _, '\\' :: [] => .error (.before opening.length)
  | 0, acc, '\\' :: 'u' :: cs =>
    match readUnit cs with
    | .error n => .error n
    | .ok (c, used) => readTextFrom opening used (c :: acc) cs
  | 0, acc, '\\' :: e :: cs =>
    match escapeChar? e with
    | some c => readTextFrom opening 0 (c :: acc) cs
    | none => .error (.before (cs.length + 2))
  | 0, acc, c :: cs =>
    if c.toNat < 0x20 then .error (.before (cs.length + 1)) else readTextFrom opening 0 (c :: acc) cs

def readText : Except Stop (String × Input) :=
  match cs with
  | '"' :: rest => readTextFrom cs 0 [] rest
  | _ => .error (.before cs.length)

/-! ## Numbers -/

def digitsValue (ds : List Char) : Nat :=
  ds.foldl (fun n d => n * 10 + (d.toNat - '0'.toNat)) 0

/-- The whole part of a number: zero alone, or digits that do not start with zero. -/
def readWhole : Option (List Char × Input) :=
  match cs with
  | '0' :: rest => some (['0'], rest)
  | c :: _ => if isAsciiDigit c then
      some (cs.takeWhile isAsciiDigit, cs.dropWhile isAsciiDigit) else none
  | [] => none

def readFraction : List Char × Input :=
  match cs with
  | '.' :: rest =>
    match rest.takeWhile isAsciiDigit with
    | [] => ([], cs)
    | ds => (ds, rest.dropWhile isAsciiDigit)
  | _ => ([], cs)

def readExponent : Option Int × Input :=
  match cs with
  | e :: rest =>
    if e == 'e' || e == 'E' then
      let (negative, afterSign) := Decimal.sign rest
      match afterSign.takeWhile isAsciiDigit with
      | [] => (none, cs)
      | ds =>
        let n : Int := digitsValue ds
        (some (if negative then -n else n), afterSign.dropWhile isAsciiDigit)
    else (none, cs)
  | [] => (none, cs)

/-- An unsigned number; `start` is where its sign or first digit stands. -/
def readUnsigned (negative : Bool) (start cs : Input) : Except Stop (Value × Input) :=
  match readWhole cs with
  | none => .error (.before start.length)
  | some (whole, afterWhole) =>
    let (fraction, afterFraction) := readFraction afterWhole
    let (exponent, rest) := readExponent afterFraction
    if fraction.isEmpty && exponent.isNone then
      if !(whole.drop Decimal.mostDigits).isEmpty then .error (.beyond .meaningless)
      else
        let n : Int := digitsValue whole
        .ok (.int (if negative then -n else n), rest)
    else
      let x := Decimal.ofScientific (digitsValue (whole ++ fraction))
        (exponent.getD 0 - (fraction.length : Int))
      .ok (.float (if negative then -x else x), rest)

/-! ## Documents -/

def wordValues : List (List Char × Value) :=
  [("null".toList, .null), ("true".toList, .bool true), ("false".toList, .bool false),
   ("NaN".toList, .float (0.0 / 0.0)), ("Infinity".toList, .float (1.0 / 0.0)),
   ("-Infinity".toList, .float (-1.0 / 0.0))]

def readScalar : Except Stop (Value × Input) :=
  match wordValues.find? (·.1.isPrefixOf cs) with
  | some (word, v) => .ok (v, cs.drop word.length)
  | none => match cs with
    | '-' :: rest => readUnsigned true cs rest
    | _ => readUnsigned false cs cs

/-- Parts with commas between them, up to the closing bracket; `fuel` bounds their number. -/
def readParts {α : Type} (close : Char) (one : Input → Except Stop (α × Input)) :
    Nat → Input → Except Stop (List α × Input)
  | 0, cs => .error (.before cs.length)
  | fuel + 1, cs => do
    let (first, rest) ← one cs
    match skipGaps rest with
    | [] => .error (.before 0)
    | c :: after =>
      if c == close then pure ([first], after)
      else if c == ',' then do
        let (more, rest) ← readParts close one fuel (skipGaps after)
        pure (first :: more, rest)
      else .error (.before (c :: after).length)

/-- What stands between brackets, after the opening one. `room` is how much deeper values may be nested. -/
def readInside {α : Type} (close : Char) (one : Nat → Input → Except Stop (α × Input)) (fuel room : Nat)
    (cs : Input) : Except Stop (List α × Input) :=
  match room, skipGaps cs with
  | 0, _ => .error (.beyond .tooDeep)
  | inside + 1, inner =>
    if inner.head? == some close then .ok ([], inner.tail) else readParts close (one inside) fuel inner

def readField (value : Input → Except Stop (Value × Input)) (cs : Input) : Except Stop ((String × Value) × Input) := do
  let (name, rest) ← readText cs
  match skipGaps rest with
  | ':' :: rest => (value (skipGaps rest)).map fun (v, rest) => ((name, v), rest)
  | other => .error (.before other.length)

/-- A value. `room` is how much deeper values may be nested; `fuel` bounds the steps, and the length of
the input is enough. -/
def readValue : Nat → Nat → Input → Except Stop (Value × Input)
  | 0, _, cs => .error (.before cs.length)
  | fuel + 1, room, cs =>
    match cs with
    | '"' :: _ => (readText cs).map fun (s, rest) => (.str s, rest)
    | '[' :: rest =>
      (readInside ']' (readValue fuel) fuel room rest).map fun (items, rest) => (.list items, rest)
    | '\x7b' :: rest =>
      (readInside '\x7d' (fun room => readField (readValue fuel room)) fuel room rest).map fun (fields, rest) =>
        (.obj (Record.ofFields fields), rest)
    | _ => readScalar cs

/-- The document that a text is, all of it; a fault says how far reading came. -/
def read (s : String) : Except Fault Value :=
  let cs := s.toList
  let total := cs.length
  match readValue (total + 1) deepest (skipGaps cs) with
  | .error (.before remaining) => .error (.badJson (total - remaining))
  | .error (.beyond fault) => .error fault
  | .ok (v, rest) =>
    match skipGaps rest with
    | [] => .ok v
    | extra => .error (.badJson (total - extra.length))

/-! ## Documents as bytes

A document starts with an ASCII character, so the zeros among its first bytes tell in which units it is
written, and a mark at its start tells it outright. -/

inductive Encoding where
  | single (mark : Nat)
  | pairs (order : Text.ByteOrder) (mark : Nat)
  | quads (order : Text.ByteOrder) (mark : Nat)

def Encoding.ofZeros : List UInt8 → Encoding
  | [a, b] => if a == 0 then .pairs .mostFirst 0 else if b == 0 then .pairs .leastFirst 0 else .single 0
  | a :: b :: c :: d :: _ =>
    if a == 0 then (if b == 0 then .quads .mostFirst 0 else .pairs .mostFirst 0)
    else if b == 0 then (if c == 0 && d == 0 then .quads .leastFirst 0 else .pairs .leastFirst 0)
    else .single 0
  | _ => .single 0

def Encoding.of : Encoding :=
  let marked := fun (mark : List UInt8) => mark.isPrefixOf bytes
  if marked [0, 0, 0xFE, 0xFF] then .quads .mostFirst 4
  else if marked [0xFF, 0xFE, 0, 0] then .quads .leastFirst 4
  else if marked [0xFE, 0xFF] then .pairs .mostFirst 2
  else if marked [0xFF, 0xFE] then .pairs .leastFirst 2
  else if marked [0xEF, 0xBB, 0xBF] then .single 3
  else .ofZeros bytes

def textOf? : Option String :=
  match Encoding.of bytes with
  | .single mark => decode? .refuse (bytes.drop mark)
  | .pairs order mark => decodePairs? order (bytes.drop mark)
  | .quads order mark => decodeQuads? order (bytes.drop mark)

end CodeAudit.Json
