import CodeAudit.Python.Token
import CodeAudit.Python.Tree

/-!
# Reading tokens

A reader takes tokens from the front of a stream and gives what they mean, or fails and takes none. `a <|> b` tries `b`
where `a` failed, so that the first alternative that fits wins.
-/

namespace CodeAudit.Python

/-- The tokens ahead, how many they are, and the line on which the last token with text ended. -/
structure Stream where
  tokens : List Token
  count : Nat
  lastLine : Nat

def Stream.ofTokens (tokens : List Token) (line : Nat) : Stream :=
  { tokens, count := tokens.length, lastLine := line }

abbrev Reads := StateT Stream Option

inductive Goal where
  | expression
  | namedExpression
  | starNamed
  | starExpressions
  | yieldOrStarExpressions
  | disjunction
  | bitwiseOr
  | inversion
  | factor
  | primary
  | pattern
  | starPattern
  | block
  | elseIf
  deriving DecidableEq, Repr

abbrev Readers := Goal → Reads (List Tree)

def Readers.one (again : Readers) (g : Goal) : Reads Tree := do
  match ← again g with
  | [t] => pure t
  | _ => failure

def takeToken (p : Token → Bool) : Reads Token := fun s =>
  match s.tokens with
  | t :: rest =>
    if p t then
      let blank := t.kind == .newline || t.kind == .indent || t.kind == .dedent
      some (t, { tokens := rest, count := s.count - 1
                 lastLine := if blank then s.lastLine else t.endLine })
    else none
  | [] => none

variable (k : TokenKind) (texts : List String)

def ofKind : Reads Token := takeToken (·.kind == k)

def oneOf : Reads Unit :=
  discard (takeToken fun t => t.kind == k && texts.contains t.text)

variable (text : String)

def op : Reads Unit := oneOf .op [text]

def keyword : Reads Unit := oneOf .keyword [text]

def identifier : Reads Identifier := do
  match (← ofKind .name).name? with
  | some name => return name.commonForm
  | none => failure

def aheadIs (n : Nat) (p : Token → Bool) : Reads Bool := fun s => some ((s.tokens[n]?).any p, s)

def ahead : Reads Bool := aheadIs 0 fun t => t.kind == k && texts.contains t.text

def opAhead : Reads Bool := ahead .op [text]

def keywordAhead : Reads Bool := ahead .keyword [text]

def nameThenOp : Reads Bool := do
  return (← aheadIs 0 (·.kind == .name)) && (← aheadIs 1 fun t => t.kind == .op && t.text == text)

def check (b : Bool) : Reads Unit := if b then pure () else failure

def lineAhead : Reads Nat := fun s => some ((s.tokens.head?.map (·.line)).getD 0, s)

variable {α : Type} (tag : Tag)

def maybe (r : Reads α) : Reads (Option α) := (some <$> r) <|> pure none

def skip (r : Reads Unit) : Reads Unit := r <|> pure ()

def took (r : Reads Unit) : Reads Bool := (r *> pure true) <|> pure false

/-- Reads as often as it fits, at most so many times; what has been read before comes last first. -/
def repeated (r : Reads α) : Nat → List α → Reads (List α)
  | 0, found => pure found.reverse
  | n + 1, found => fun s =>
    match r s with
    | some (a, s') => repeated r n (a :: found) s'
    | none => some (found.reverse, s)

def many (r : Reads α) : Reads (List α) := do repeated r (← get).count []

def separated {α β : Type} (sep : Reads β) (r : Reads α) : Reads (List α) := do
  let a ← r
  return a :: (← many (sep *> r))

def commaRest (r : Reads α) : Reads (List α) := many (op "," *> r) <* skip (op ",")

def commaSome (r : Reads α) : Reads (List α) := separated (op ",") r <* skip (op ",")

def commaList (r : Reads α) : Reads (List α) := commaSome r <|> pure []

def enclosed (first : String) (r : Reads α) (last : String) : Reads α := op first *> r <* op last

def extended (step : Tree → Reads Tree) : Nat → Tree → Reads Tree
  | 0, t => pure t
  | n + 1, t => fun s =>
    match step t s with
    | some (t', s') => extended step n t' s'
    | none => some (t, s)

def extend (step : Tree → Reads Tree) (t : Tree) : Reads Tree := do extended step (← get).count t

def node (line : Nat) (parts : List Tree) : Reads Tree := do
  return .node .part tag line (← get).lastLine parts

/-- A node that starts where its parts do. -/
def spanning (parts : Reads (List Tree)) : Reads Tree := do
  let line ← lineAhead
  node tag line (← parts)

/-- Operands with something between them; one alone stays as it is. -/
def joined (sep : Reads Unit) (operand : Reads Tree) : Reads Tree := do
  let line ← lineAhead
  match ← separated sep operand with
  | [only] => pure only
  | all => node tag line all

def tupled (r : Reads Tree) : Reads Tree := do
  let line ← lineAhead
  let first ← r
  if ← opAhead "," then node .tuple line (first :: (← commaRest r)) else pure first

def starredOr (inner other : Reads Tree) : Reads Tree := do
  if ← opAhead "*" then spanning .starred do return [← op "*" *> inner] else other

def allIn (r : Role) (ts : List Tree) : List Tree := ts.map (·.inRole r)

end CodeAudit.Python
