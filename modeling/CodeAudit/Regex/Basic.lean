import CodeAudit.Text.Basic

/-!
# Regular expressions

`Regex.run r k c` tries `r` at the cursor `c` and hands every way to match it, best first, to the continuation `k`; the
first one that `k` accepts is the answer. Repetition tries more rounds before fewer, or fewer before more where it is
lazy. Every function recurses on the expression or on a number of rounds, hence evaluates by unfolding.
-/

namespace CodeAudit

inductive ClassItem where
  | char (c : Char)
  | range (low high : Char)
  | blank
  | notBlank
  | word
  | notWord
  | digit
  | notDigit
  deriving DecidableEq, Repr

def ClassItem.has : ClassItem → Char → Bool
  | .char c, x => c == x
  | .range low high, x => low ≤ x && x ≤ high
  | .blank, x => Text.isBlank x
  | .notBlank, x => !Text.isBlank x
  | .word, x => Text.isWord x
  | .notWord, x => !Text.isWord x
  | .digit, x => Text.isDigit x
  | .notDigit, x => !Text.isDigit x

/-- A set of characters. Where `anyCase` holds, letters of either case belong to it together. -/
structure CharSet where
  negated : Bool
  anyCase : Bool
  items : List ClassItem
  deriving DecidableEq, Repr

/-- The lower-case ASCII letter that a character stands for when case is ignored. Besides the
capital letters these are the dotted and the dotless i, the long s and the Kelvin sign. -/
def foldCase (c : Char) : Char :=
  if 'A' ≤ c ∧ c ≤ 'Z' then Char.ofNat (c.toNat + 32)
  else if c.toNat == 0x130 || c.toNat == 0x131 then 'i'
  else if c.toNat == 0x17F then 's'
  else if c.toNat == 0x212A then 'k'
  else c

def caseForms (c : Char) : List Char :=
  let l := foldCase c
  if 'a' ≤ l ∧ l ≤ 'z' then [l, Char.ofNat (l.toNat - 32)] else [c]

def CharSet.has (s : CharSet) (c : Char) : Bool :=
  let forms := if s.anyCase then caseForms c else [c]
  (s.items.any fun item => forms.any item.has) != s.negated

inductive Regex where
  | empty
  | one (s : CharSet)
  | seq (a b : Regex)
  | alt (a b : Regex)
  /-- Between `least` and `most` rounds of `body`, as many as possible or, if `lazy`, as few. -/
  | rep (least : Nat) (most : Option Nat) (isLazy : Bool) (body : Regex)
  | group (index : Nat) (body : Regex)
  | again (index : Nat)
  | start (ofLine : Bool)
  /-- The end of the text, or of any line; a line feed at the very end may follow. -/
  | finish (ofLine : Bool)
  | close
  | edge
  deriving DecidableEq, Repr

structure Capture where
  index : Nat
  start : Nat
  size : Nat
  ahead : List Char

def Capture.text (g : Capture) : List Char := g.ahead.take g.size

def Capture.textOf? (groups : List Capture) (index : Nat) : Option (List Char) :=
  (groups.find? (·.index == index)).map Capture.text

/-- A place in a text with what the groups have matched so far, last one first. -/
structure Cursor where
  before : Option Char
  rest : List Char
  pos : Nat
  groups : List Capture

namespace Cursor

def ofText (cs : List Char) : Cursor := { before := none, rest := cs, pos := 0, groups := [] }

def past (c : Cursor) (x : Char) (xs : List Char) : Cursor :=
  { c with before := some x, rest := xs, pos := c.pos + 1 }

def pastText? : List Char → Cursor → Option Cursor
  | [], c => some c
  | x :: xs, c =>
    match c.rest with
    | [] => none
    | y :: ys => if x == y then pastText? xs (c.past y ys) else none

def atEdge (c : Cursor) : Bool :=
  let left := c.before.any Text.isWord
  let right := c.rest.head?.any Text.isWord
  left != right

def atStart (ofLine : Bool) (c : Cursor) : Bool :=
  match c.before with
  | none => true
  | some x => ofLine && x == '\n'

def atFinish (ofLine : Bool) (c : Cursor) : Bool :=
  match c.rest with
  | [] => true
  | x :: xs => x == '\n' && (ofLine || xs.isEmpty)

end Cursor

namespace Regex

/-- Rounds of a step that have to be made, one after the other. -/
def required (step : (Cursor → Option Cursor) → Cursor → Option Cursor) :
    Nat → (Cursor → Option Cursor) → Cursor → Option Cursor
  | 0, k, c => k c
  | n + 1, k, c => step (fun c' => required step n k c') c

/-- Rounds of a step that may be made, at most `most`. Each must move on, so that what lies ahead
of the cursor, `room`, bounds their number. -/
def optional (step : (Cursor → Option Cursor) → Cursor → Option Cursor) (isLazy : Bool) :
    List Char → Option Nat → (Cursor → Option Cursor) → Cursor → Option Cursor
  | [], _, k, c => k c
  | _ :: room, most, k, c =>
    if most == some 0 then k c
    else
      let more := fun (_ : Unit) =>
        step (fun c' =>
          if c'.pos == c.pos then none
          else optional step isLazy room (most.map (· - 1)) k c') c
      if isLazy then match k c with
        | some result => some result
        | none => more ()
      else match more () with
        | some result => some result
        | none => k c

/-- The first way to match an expression at a cursor that the continuation accepts. -/
def run : Regex → (Cursor → Option Cursor) → Cursor → Option Cursor
  | .empty, k, c => k c
  | .one s, k, c =>
    match c.rest with
    | [] => none
    | x :: xs => if s.has x then k (c.past x xs) else none
  | .seq a b, k, c => run a (fun c' => run b k c') c
  | .alt a b, k, c => match run a k c with
    | some result => some result
    | none => run b k c
  | .rep least most isLazy body, k, c =>
    required (fun k' c' => run body k' c') least (fun c' =>
      optional (fun k' c' => run body k' c') isLazy c'.rest (most.map (· - least)) k c') c
  | .group index body, k, c =>
    run body (fun c' =>
      let found : Capture := { index, start := c.pos, size := c'.pos - c.pos, ahead := c.rest }
      k { c' with groups := found :: c'.groups }) c
  | .again index, k, c =>
    match Capture.textOf? c.groups index with
    | none => none
    | some text => match c.pastText? text with
      | none => none
      | some c' => k c'
  | .start ofLine, k, c => if c.atStart ofLine then k c else none
  | .finish ofLine, k, c => if c.atFinish ofLine then k c else none
  | .close, k, c => if c.rest.isEmpty then k c else none
  | .edge, k, c => if c.atEdge then k c else none

end Regex

structure Match where
  start : Nat
  text : List Char
  groups : List Capture

namespace Match

def group? (m : Match) (index : Nat) : Option (List Char) :=
  Capture.textOf? m.groups index

end Match

namespace Regex

/-- The match of an expression that starts at a cursor; a `moving` one is not empty. -/
def matchAt? (r : Regex) (moving : Bool) (c : Cursor) : Option Match :=
  let accept := fun (stop : Cursor) => if moving && stop.pos == c.pos then none else some stop
  (run r accept { c with groups := [] }).map fun stop =>
    { start := c.pos, text := c.rest.take (stop.pos - c.pos), groups := stop.groups }

/-- The first match that starts at the cursor or at one of the next `fuel` places, with the place
where it starts. -/
def searchFrom (r : Regex) (moving : Bool) : Nat → Cursor → Option (Match × Cursor)
  | 0, c => (r.matchAt? moving c).map fun m => (m, c)
  | fuel + 1, c =>
    match r.matchAt? moving c with
    | some m => some (m, c)
    | none =>
      match c.rest with
      | [] => none
      | x :: xs => searchFrom r false fuel (c.past x xs)

def search? (r : Regex) (cs : List Char) : Option Match :=
  (r.searchFrom false cs.length (.ofText cs)).map (·.1)

def occursIn (r : Regex) (cs : List Char) : Bool := (r.search? cs).isSome

def matchStart? (r : Regex) (cs : List Char) : Option Match := r.matchAt? false (.ofText cs)

def advance : Nat → Cursor → Cursor
  | 0, c => c
  | n + 1, c =>
    match c.rest with
    | [] => c
    | x :: xs => advance n (c.past x xs)

/-- The matches of an expression from a cursor on, from the left and without overlap; after an
empty match the next one either moves on or starts further right. -/
def matchesFrom (r : Regex) : Nat → Bool → Cursor → List Match
  | 0, _, _ => []
  | fuel + 1, moving, c =>
    match r.searchFrom moving c.rest.length c with
    | none => []
    | some (m, place) => m :: matchesFrom r fuel m.text.isEmpty (advance m.text.length place)

def allMatches (r : Regex) (cs : List Char) : List Match :=
  r.matchesFrom (2 * cs.length + 2) false (.ofText cs)

end Regex

end CodeAudit
