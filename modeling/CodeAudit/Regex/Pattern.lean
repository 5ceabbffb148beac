import CodeAudit.Regex.Basic

/-!
# Patterns

The usual notation: classes in brackets, the shorthands `\s \w \d \b`, groups, alternatives, repetitions with an
optional `?` for the lazy form, anchors and references to groups. `Regex.ofPattern?` reads a pattern; `pattern` is for
those of this library, all well formed.
-/

namespace CodeAudit.Regex

structure Mode where
  anyCase : Bool := false
  byLine : Bool := false
  dotAll : Bool := false

variable (mode : Mode)

def char (c : Char) : Regex :=
  .one { negated := false, anyCase := mode.anyCase, items := [.char c] }

def dot : Regex :=
  .one { negated := true, anyCase := false, items := if mode.dotAll then [] else [.char '\n'] }

def shorthand? : Char → Option ClassItem
  | 's' => some .blank
  | 'S' => some .notBlank
  | 'w' => some .word
  | 'W' => some .notWord
  | 'd' => some .digit
  | 'D' => some .notDigit
  | _ => none

/-- The character that an escape stands for, where it is one: a letter for a control character, two
hexadecimal digits after `x`, or any other character for itself. -/
def escapedChar : List Char → Option (Char × List Char)
  | 'n' :: cs => some ('\n', cs)
  | 't' :: cs => some ('\t', cs)
  | 'r' :: cs => some ('\r', cs)
  | 'x' :: a :: b :: cs => some (Char.ofNat (Text.hexNumber [a, b]), cs)
  | c :: cs => some (c, cs)
  | [] => none

def classAtom : List Char → Option (ClassItem × List Char)
  | '\\' :: cs =>
    match cs with
    | c :: rest => match shorthand? c with
      | some item => some (item, rest)
      | none => (escapedChar cs).map fun (x, more) => (.char x, more)
    | [] => none
  | c :: cs => some (.char c, cs)
  | [] => none

variable (cs : List Char) (s : String)

def classItem : Option (ClassItem × List Char) := do
  let (low, rest) ← classAtom cs
  match low, rest with
  | .char _, '-' :: ']' :: _ => some (low, rest)
  | .char a, '-' :: more => do
    let (high, after) ← classAtom more
    match high with
    | .char b => some (.range a b, after)
    | _ => none
  | _, _ => some (low, rest)

/-- The items of a class up to its closing bracket; the first item may be a bracket. -/
def classItems : Nat → Bool → List Char → Option (List ClassItem × List Char)
  | 0, _, _ => none
  | fuel + 1, first, cs =>
    match first, cs with
    | false, ']' :: rest => some ([], rest)
    | _, _ => do
      let (item, rest) ← classItem cs
      let (items, after) ← classItems fuel false rest
      pure (item :: items, after)

def charClass (cs : List Char) : Option (Regex × List Char) := do
  let (negated, body) := match cs with
    | '^' :: rest => (true, rest)
    | _ => (false, cs)
  let (items, after) ← classItems (body.length + 1) true body
  pure (.one { negated, anyCase := mode.anyCase, items }, after)

def leadingNumber : Option Nat × List Char :=
  match cs.takeWhile Text.isAsciiDigit with
  | [] => (none, cs)
  | ds => (some (ds.foldl (fun n d => n * 10 + (d.toNat - '0'.toNat)) 0), cs.dropWhile Text.isAsciiDigit)

/-- Bounds in braces, after the opening one: `m`, `m,`, `,n` or `m,n`. -/
def bounds : Option ((Nat × Option Nat) × List Char) :=
  let (low, rest) := leadingNumber cs
  match rest with
  | '\x7d' :: after => low.map fun m => ((m, some m), after)
  | ',' :: more =>
    let (high, rest') := leadingNumber more
    match rest' with
    | '\x7d' :: after => some ((low.getD 0, high), after)
    | _ => none
  | _ => none

def quantity : Option ((Nat × Option Nat) × List Char) :=
  match cs with
  | '*' :: rest => some ((0, none), rest)
  | '+' :: rest => some ((1, none), rest)
  | '?' :: rest => some ((0, some 1), rest)
  | '\x7b' :: rest => bounds rest
  | _ => none

def quantified (r : Regex) (cs : List Char) : Regex × List Char :=
  match quantity cs with
  | none => (r, cs)
  | some ((least, most), rest) =>
    match rest with
    | '?' :: after => (.rep least most true r, after)
    | _ => (.rep least most false r, rest)

/-- What has been read: the expression, the next group number, the names of groups, and the rest. -/
structure Progress where
  regex : Regex
  next : Nat
  names : List (String × Nat)
  rest : List Char

inductive Opening where
  | plain
  | numbered
  | named (name : String)

def opening : Opening × List Char :=
  match cs with
  | '?' :: ':' :: rest => (.plain, rest)
  | '?' :: 'P' :: '<' :: rest =>
    (.named (String.ofList (rest.takeWhile (· != '>'))), (rest.dropWhile (· != '>')).drop 1)
  | _ => (.numbered, cs)

def escape (cs : List Char) : Option (Regex × List Char) :=
  match cs with
  | [] => none
  | c :: rest =>
    if c == 'b' then some (.edge, rest)
    else if c == 'Z' then some (.close, rest)
    else if '1' ≤ c ∧ c ≤ '9' then some (.again (c.toNat - '0'.toNat), rest)
    else match shorthand? c with
      | some item => some (.one { negated := false, anyCase := false, items := [item] }, rest)
      | none => (escapedChar cs).map fun (x, more) => (char mode x, more)

mutual

def alternatives (mode : Mode) : Nat → Nat → List Char → Option Progress
  | 0, _, _ => none
  | fuel + 1, next, cs => do
    let first ← sequence mode fuel next cs
    match first.rest with
    | '|' :: more => do
      let others ← alternatives mode fuel first.next more
      pure { others with regex := .alt first.regex others.regex, names := first.names ++ others.names }
    | _ => pure first

def sequence (mode : Mode) : Nat → Nat → List Char → Option Progress
  | 0, _, _ => none
  | fuel + 1, next, cs =>
    match cs with
    | [] => some { regex := .empty, next, names := [], rest := [] }
    | '|' :: _ => some { regex := .empty, next, names := [], rest := cs }
    | ')' :: _ => some { regex := .empty, next, names := [], rest := cs }
    | _ => do
      let item ← atom mode fuel next cs
      let (repeated, rest) := quantified item.regex item.rest
      let others ← sequence mode fuel item.next rest
      let regex := match others.regex with
        | .empty => repeated
        | more => .seq repeated more
      pure { others with regex, names := item.names ++ others.names }

def atom (mode : Mode) : Nat → Nat → List Char → Option Progress
  | 0, _, _ => none
  | fuel + 1, next, cs =>
    let single := fun (found : Option (Regex × List Char)) =>
      found.map fun (regex, rest) => ({ regex, next, names := [], rest } : Progress)
    match cs with
    | [] => none
    | '(' :: inner =>
      let (kind, body) := opening inner
      let start := match kind with
        | .plain => next
        | _ => next + 1
      match alternatives mode fuel start body with
      | none => none
      | some p =>
        match p.rest with
        | ')' :: after => match kind with
          | .plain => some { p with rest := after }
          | .numbered => some { p with regex := .group next p.regex, rest := after }
          | .named name =>
            some { p with regex := .group next p.regex, names := (name, next) :: p.names, rest := after }
        | _ => none
    | '[' :: rest => single (charClass mode rest)
    | '.' :: rest => single (some (dot mode, rest))
    | '^' :: rest => single (some (.start mode.byLine, rest))
    | '$' :: rest => single (some (.finish mode.byLine, rest))
    | '\\' :: rest => single (escape mode rest)
    | c :: rest => single (some (char mode c, rest))

end

def readPattern? : Option (Regex × List (String × Nat)) := do
  let cs := s.toList
  let p ← alternatives mode (3 * cs.length + 3) 1 cs
  if p.rest.isEmpty then some (p.regex, p.names) else none

def ofPattern? : Option Regex := (readPattern? mode s).map (·.1)

def pattern (mode : Mode := {}) : Regex := (ofPattern? mode s).getD .empty

def anyCase : Regex := pattern s { anyCase := true }

end CodeAudit.Regex
