import CodeAudit.Calendar.Moment
import CodeAudit.Json.Reader
import CodeAudit.Regex.Pattern

/-!
# Scalars of a YAML document

The kind of an untagged plain scalar follows from its spelling, by version 1.1 of the format: `yes` and `off` are truth
values, `0x10` and `1:30` are whole numbers, `2024-01-31` is a date. A tagged scalar is read as that kind whatever its
spelling.
-/

namespace CodeAudit.Yaml

open Decimal Text

inductive Tag where
  | null
  | bool
  | int
  | float
  | timestamp
  | str
  | binary
  | merge
  | ownValue
  | seq
  | map
  | set
  | orderedMap
  | pairs
  | unknown
  deriving DecidableEq

def Tag.ofName (name : String) : Tag :=
  match name with
  | "tag:yaml.org,2002:null" => .null
  | "tag:yaml.org,2002:bool" => .bool
  | "tag:yaml.org,2002:int" => .int
  | "tag:yaml.org,2002:float" => .float
  | "tag:yaml.org,2002:timestamp" => .timestamp
  | "tag:yaml.org,2002:str" => .str
  | "tag:yaml.org,2002:binary" => .binary
  | "tag:yaml.org,2002:merge" => .merge
  | "tag:yaml.org,2002:value" => .ownValue
  | "tag:yaml.org,2002:seq" => .seq
  | "tag:yaml.org,2002:map" => .map
  | "tag:yaml.org,2002:set" => .set
  | "tag:yaml.org,2002:omap" => .orderedMap
  | "tag:yaml.org,2002:pairs" => .pairs
  | _ => .unknown

def Tag.isScalar : Tag → Bool
  | .null | .bool | .int | .float | .timestamp | .str | .binary => true
  | _ => false

/-! ## Spelling -/

def boolWords : List String := ["yes", "no", "true", "false", "on", "off"]

def floatPattern : Regex := .pattern (
  "^(?:[-+]?[0-9][0-9_]*\\.[0-9_]*(?:[eE][-+][0-9]+)?|\\.[0-9][0-9_]*(?:[eE][-+][0-9]+)?"
  ++ "|[-+]?[0-9][0-9_]*(?::[0-5]?[0-9])+\\.[0-9_]*|[-+]?\\.(?:inf|Inf|INF)|\\.(?:nan|NaN|NAN))$")

def intPattern : Regex := .pattern (
  "^(?:[-+]?0b[0-1_]+|[-+]?0[0-7_]+|[-+]?(?:0|[1-9][0-9_]*)|[-+]?0x[0-9a-fA-F_]+"
  ++ "|[-+]?[1-9][0-9_]*(?::[0-5]?[0-9])+)$")

def timestampPattern : Regex := .pattern (
  "^(?:[0-9][0-9][0-9][0-9]-[0-9][0-9]-[0-9][0-9]"
  ++ "|[0-9][0-9][0-9][0-9]-[0-9][0-9]?-[0-9][0-9]?(?:[Tt]|[ \\t]+)[0-9][0-9]?:[0-9][0-9]:[0-9][0-9]"
  ++ "(?:\\.[0-9]*)?(?:[ \\t]*(?:Z|[-+][0-9][0-9]?(?::[0-9][0-9])?))?)$")

/-- The parts of a date or moment: year, month, day, hour, minute, second, fraction, zone, and of the
zone its sign, hours and minutes. -/
def timestampParts : Regex := .pattern (
  "^([0-9][0-9][0-9][0-9])-([0-9][0-9]?)-([0-9][0-9]?)(?:(?:[Tt]|[ \\t]+)([0-9][0-9]?):([0-9][0-9])"
  ++ ":([0-9][0-9])(?:\\.([0-9]*))?(?:[ \\t]*(Z|([-+])([0-9][0-9]?)(?::([0-9][0-9]))?))?)?$")

variable (text : String)

def Tag.ofPlain : Tag :=
  let cs := text.toList
  let isCased (word : String) := text == word || text == capitalize word || text == upper word
  if cs.isEmpty || text == "~" || isCased "null" then .null
  else if boolWords.any isCased then .bool
  else if floatPattern.occursIn cs then .float
  else if intPattern.occursIn cs then .int
  else if timestampPattern.occursIn cs then .timestamp
  else if text == "<<" then .merge
  else if text == "=" then .ownValue
  else .str

/-! ## Meaning -/

def readBool : Except Fault Value :=
  let word := lower text
  if ["yes", "true", "on"].contains word then .ok (.bool true)
  else if ["no", "false", "off"].contains word then .ok (.bool false)
  else .error .missingField

/-- The number whose digits to the base sixty are given, the last one first. -/
def sexagesimal (digits : List Int) : Int :=
  digits.foldr (fun d n => d + 60 * n) 0

/-- A whole number: binary after `0b`, hexadecimal after `0x`, octal after another zero, in degrees
and minutes where it holds a colon, and decimal otherwise. -/
def readInt : Except Fault Value := do
  let cs := text.toList.filter (· != '_')
  let (negative, body) := sign cs
  let known (n : Option Int) : Except Fault Value := match n with
    | some n => .ok (.int (if negative then -n else n))
    | none => .error .meaningless
  match body with
  | [] => throw .outOfRange
  | ['0'] => return .int 0
  | '0' :: 'b' :: digits => known (readIn? 2 (String.ofList digits))
  | '0' :: 'x' :: digits => known (readIn? 16 (String.ofList digits))
  | '0' :: _ => known (readIn? 8 (String.ofList body))
  | _ =>
    let parts := (Chars.fieldsAt ':' body).mapM fun part => readInt? (String.ofList part)
    known (parts.map fun digits => sexagesimal digits.reverse)

/-- The sum of digits to the base sixty, the last one first, from a place on. -/
def sexagesimalSum (sum : Float) (base : Nat) : List Float → Except Fault Float
  | [] => .ok sum
  | d :: rest =>
    let unit := ofInt base
    if unit.isInf then .error .overflow else sexagesimalSum (sum + d * unit) (base * 60) rest

/-- A floating point number; one with colons is in degrees, minutes and seconds. -/
def readFloat : Except Fault Value := do
  let cs := (lower text).toList.filter (· != '_')
  if cs.isEmpty then throw .outOfRange
  let (negative, body) := sign cs
  let signed (x : Float) : Value := .float (if negative then -1.0 * x else x)
  if body == ".inf".toList then return signed (1.0 / 0.0)
  if body == ".nan".toList then return .float (0.0 / 0.0)
  match (Chars.fieldsAt ':' body).mapM fun part => readFloat? (String.ofList part) with
  | some [x] => return signed x
  | some digits => return signed (← sexagesimalSum 0.0 1 digits.reverse)
  | none => throw .meaningless

def zoneText (minutes : Int) : String :=
  let n := minutes.natAbs
  (if minutes < 0 then "-" else "+") ++ zeroPadded 2 (n / 60 : Nat) ++ ":" ++ zeroPadded 2 (n % 60 : Nat)

def zoneQuoted (minutes : Int) : String :=
  if minutes == 0 then "datetime.timezone.utc"
  else
    let seconds := minutes * 60
    let length := if minutes < 0 then s!"days=-1, seconds={seconds + 86400}" else s!"seconds={seconds}"
    s!"datetime.timezone(datetime.timedelta({length}))"

def readTimestamp : Except Fault Value := do
  let some found := timestampParts.matchStart? text.toList | throw .noSuchPart
  let part (index : Nat) : List Char := (found.group? index).getD []
  let number (index : Nat) : Nat := Json.digitsValue (part index)
  let date : Date := { year := number 1, month := number 2, day := number 3 }
  if !date.isValid then throw .meaningless
  let day := date.text
  if (part 4).isEmpty then
    return .foreign day s!"datetime.date({date.year}, {date.month}, {date.day})"
  let (hour, minute, second) := (number 4, number 5, number 6)
  let micro := Json.digitsValue ((part 7 ++ List.replicate 6 '0').take 6)
  let zoneMinutes : Int := (number 10 * 60 + number 11 : Nat)
  let zone : Option Int :=
    if !(part 9).isEmpty then some (if part 9 == ['-'] then -zoneMinutes else zoneMinutes)
    else if !(part 8).isEmpty then some 0
    else none
  if 23 < hour || 59 < minute || 59 < second || 1440 ≤ zoneMinutes then throw .meaningless
  let two (n : Nat) := zeroPadded 2 (n : Int)
  let time := two hour ++ ":" ++ two minute ++ ":" ++ two second
    ++ (if micro == 0 then "" else "." ++ zeroPadded 6 (micro : Int))
  let small := if micro != 0 then s!", {second}, {micro}" else if second != 0 then s!", {second}" else ""
  let quotedZone := match zone with
    | some m => ", tzinfo=" ++ zoneQuoted m
    | none => ""
  return .foreign (day ++ " " ++ time ++ (zone.map zoneText).getD "")
    (s!"datetime.datetime({date.year}, {date.month}, {date.day}, {hour}, {minute}{small}{quotedZone}" ++ ")")

def byteText (quote : Char) (b : UInt8) : String :=
  let c := Char.ofNat b.toNat
  if c == '\\' || c == quote then String.ofList ['\\', c]
  else if c == '\n' then "\\n"
  else if c == '\r' then "\\r"
  else if c == '\t' then "\\t"
  else if 0x20 ≤ b && b < 0x7F then String.singleton c
  else "\\x" ++ hexPadded 2 b.toNat

def bytesValue (bytes : List UInt8) : Value :=
  let quote := if bytes.contains 39 && !bytes.contains 34 then '"' else '\''
  let text := "b" ++ String.singleton quote ++ String.join (bytes.map (byteText quote)) ++ String.singleton quote
  .foreign text text

/-- Bytes written with four characters for three of them. `held` counts the digits of a group that have
been read, of which `left` is what no byte has taken; `pads` counts the padding directly before. What is
no digit is passed over, padding that fills a group ends the text, and a group must not stay open. -/
def groupedBytes? (held left pads : Nat) : List Char → Option (List UInt8)
  | [] => if held == 0 then some [] else none
  | c :: cs =>
    if c == '=' then
      if 2 ≤ held && 4 ≤ held + pads + 1 then some []
      else groupedBytes? held left (if 2 ≤ held then pads + 1 else pads) cs
    else match base64Digit? c with
      | none => groupedBytes? held left pads cs
      | some d => match held with
        | 0 => groupedBytes? 1 d 0 cs
        | 1 => (groupedBytes? 2 (d % 16) 0 cs).map ((left * 4 + d / 16).toUInt8 :: ·)
        | 2 => (groupedBytes? 3 (d % 4) 0 cs).map ((left * 16 + d / 4).toUInt8 :: ·)
        | _ => (groupedBytes? 0 0 0 cs).map ((left * 64 + d).toUInt8 :: ·)

def readBinary : Except Fault Value :=
  if !text.toList.all isAscii then .error .badYaml
  else match groupedBytes? 0 0 0 text.toList with
    | some bytes => .ok (bytesValue bytes)
    | none => .error .badYaml

def scalarValue (tag : Tag) (text : String) : Except Fault Value :=
  match tag with
  | .null => .ok .null
  | .bool => readBool text
  | .int => readInt text
  | .float => readFloat text
  | .timestamp => readTimestamp text
  | .str => .ok (.str text)
  | .binary => readBinary text
  | _ => .error .badYaml

end CodeAudit.Yaml
