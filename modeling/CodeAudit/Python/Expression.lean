import CodeAudit.Decimal.Reader
import CodeAudit.Python.Literal
import CodeAudit.Python.Stream

/-!
# Expressions of Python

The grammar of expressions, from the loosest binding down to atoms. A node starts on the line of the first token of its
rule; parentheses leave an expression as it is.
-/

namespace CodeAudit.Python

/-! ## Operators -/

def leftJoined (ops : List String) (operand : Reads Tree) : Reads Tree := do
  let line ← lineAhead
  extend (fun left => do
    oneOf .op ops
    node .binaryOp line [left, ← operand]) (← operand)

def comparison : Reads Unit :=
  oneOf .op ["==", "!=", "<=", "<", ">=", ">"] <|> keyword "in" <|> (keyword "not" *> keyword "in") <|>
  (keyword "is" *> skip (keyword "not"))

/-! ## Targets -/

def isStarred (t : Tree) : Bool := t.tag == .starred

def isSingleTarget (t : Tree) : Bool :=
  match t.tag with
  | .name _ | .attribute _ | .subscript => true
  | _ => false

mutual

/-- Whether a tree may be assigned to or deleted; elements of lists and tuples that are assigned to may be starred. -/
def isTarget (deleted : Bool) : Tree → Bool
  | .node _ tag _ _ ps => match tag with
    | .name _ | .attribute _ | .subscript => true
    | .tuple | .list => allTargets deleted ps
    | .starred => !deleted && !ps.any isStarred && allTargets deleted ps
    | _ => false

def allTargets (deleted : Bool) : List Tree → Bool
  | [] => true
  | t :: ts => isTarget deleted t && allTargets deleted ts

end

section
variable (again : Readers)

def starTarget : Reads Tree := do
  let whole ← starredOr (again.one .primary) (again.one .primary)
  check (isTarget false whole)
  return whole

def starTargets : Reads Tree := tupled (starTarget again)

/-! ## Comprehensions -/

def forClause : Reads Tree := spanning .comprehension do
  skip (keyword "async")
  keyword "for"
  let target ← starTargets again
  keyword "in"
  let source ← again.one .disjunction
  return target :: source :: (← many (keyword "if" *> again.one .disjunction))

def forAhead : Reads Bool := ahead .keyword ["for", "async"]

def comprehended (tag : Tag) (line : Nat) (before : List Tree) (close : String) : Reads Tree := do
  check !(before.any isStarred)
  let clauses ← separated (pure ()) (forClause again)
  op close
  node tag line (before ++ clauses)

/-! ## Arguments of calls -/

/-- Where in an argument list a reader stands: unpacked keywords allow only keywords after them,
and keywords allow no plain arguments. -/
inductive ArgumentPhase where
  | plain
  | named
  | unpacked
  deriving DecidableEq

def argument (phase : ArgumentPhase) : Reads (Tree × ArgumentPhase) := do
  let line ← lineAhead
  let keywordOf (name : Option Identifier) : Reads Tree := do
    return (← node (.keywordArgument name) line [(← again.one .expression).inRole .value]).inRole .keyword
  if ← took (op "*") then
    check (phase != .unpacked)
    return ((← node .starred line [← again.one .expression]).inRole .argument, phase)
  else if ← took (op "**") then return (← keywordOf none, .unpacked)
  else if ← nameThenOp "=" then
    let name ← identifier <* op "="
    return (← keywordOf name, if phase == .unpacked then phase else .named)
  else
    check (phase == .plain)
    return ((← again.one .namedExpression).inRole .argument, phase)

def moreArguments : Nat → ArgumentPhase → Reads (List Tree)
  | 0, _ => pure []
  | n + 1, phase => (do
    op ","
    let (a, phase') ← argument again phase
    return a :: (← moreArguments n phase')) <|> pure []

/-- The arguments after the first one: the plain ones come before the named ones. -/
def argumentsAfter (first : Tree) (phase : ArgumentPhase) : Reads (List Tree) := do
  let all := first :: (← moreArguments again (← get).count phase)
  skip (op ",")
  return all.filter (·.role == .argument) ++ all.filter (·.role == .keyword)

def arguments : Reads (List Tree) := do
  if ← opAhead ")" then return []
  let (first, phase) ← argument again .plain
  argumentsAfter again first phase

/-- What stands between the parentheses of a call, the first of which is on the given line, and the last one: one
comprehension without parentheses of its own, or arguments. -/
def callArguments (line : Nat) : Reads (List Tree) := do
  if ← took (op ")") then return []
  let (first, phase) ← argument again .plain
  if ← forAhead then
    check (first.role == .argument)
    return [(← comprehended again .generator line [first] ")").inRole .argument]
  else argumentsAfter again first phase <* op ")"

/-! ## Subscripts -/

def sliceItem : Reads Tree := do
  let line ← lineAhead
  let named ← nameThenOp ":="
  let low ← if ← opAhead ":" then pure none else some <$> again.one .namedExpression
  match low, (← opAhead ":") && !named with
  | some index, false => pure index
  | none, false => failure
  | _, true =>
    op ":"
    let high ← maybe (again.one .expression)
    let step ← maybe (op ":" *> maybe (again.one .expression))
    node .slice line (low.toList ++ high.toList ++ (step.bind id).toList)

def slices : Reads Tree := do
  let line ← lineAhead
  let item := starredOr (again.one .expression) (sliceItem again)
  let first ← item
  if (← opAhead ",") || isStarred first then node .tuple line (first :: (← commaRest item)) else pure first

/-! ## Atoms -/

/-- The tree of a field's expression. It is read as if it stood in parentheses. -/
def fieldTree (line : Nat) (text : List Char) : Reads Tree := fun s =>
  match tokens? line (['('] ++ text ++ [')']) with
  | none => none
  | some tokens =>
    match again.one .starExpressions (.ofTokens tokens line) with
    | some (t, rest) => if rest.tokens.all (·.kind == .newline) then some (t, s) else none
    | none => none

/-- The trees of the fields of a formatted literal on a line; the node that holds them starts on the
line of the first literal. -/
def fieldTrees (first line endLine : Nat) : Nat → List Field → Reads (List Tree)
  | 0, _ => failure
  | _ + 1, [] => pure []
  | n + 1, .mk expression before format :: rest => do
    let value ← fieldTree again (line + before) expression
    let inner ← match format with
      | none => pure []
      | some found => do
        let trees ← fieldTrees first line endLine n found
        pure [Tree.node .part .joinedText first endLine trees]
    let others ← fieldTrees first line endLine n rest
    return Tree.node .part .formattedValue first endLine (value.inRole .value :: inner) :: others

def strings : Reads Tree := do
  let line ← lineAhead
  let literals := (← separated (pure ()) (ofKind .string)).map fun t => (t, Literal.ofText t.text.toList)
  check ((literals.all fun l => l.2.bytes) || !literals.any fun l => l.2.bytes)
  let endLine := (← get).lastLine
  let trees ← literals.mapM fun (t, l) => do
    if l.formatted then
      match l.fields? with
      | none => failure
      | some found => fieldTrees again line t.line endLine (l.body.length + 2) found
    else
      check l.fits
      return []
  if literals.any fun l => l.2.formatted then node .joinedText line trees.flatten
  else node .constant line []

/-- Whether a number is small enough to be read: whole decimal numbers other than zero have only so many
digits. -/
def numberFits (text : List Char) : Bool :=
  text.head? == some '0' || !(text.all fun c => Text.isAsciiDigit c || c == '_') ||
    (text.filter Text.isAsciiDigit).length ≤ Decimal.mostDigits

/-- Something in parentheses: a tuple, a comprehension, or an expression that stays as it is. -/
def parenthesised : Reads Tree := do
  let line ← lineAhead
  op "("
  if ← took (op ")") then node .tuple line []
  else if ← keywordAhead "yield" then again.one .yieldOrStarExpressions <* op ")"
  else
    let first ← again.one .starNamed
    if ← opAhead "," then
      let rest ← commaRest (again.one .starNamed) <* op ")"
      node .tuple line (first :: rest)
    else if ← forAhead then comprehended again .generator line [first] ")"
    else
      check !(isStarred first)
      op ")"
      return first

/-- The rest of a list or set after its first element, which may be a comprehension. -/
def elementsAfter (byClauses whole : Tag) (line : Nat) (first : Tree) (close : String) : Reads Tree := do
  if ← forAhead then comprehended again byClauses line [first] close
  else
    let rest ← commaRest (again.one .starNamed) <* op close
    node whole line (first :: rest)

def bracketed : Reads Tree := do
  let line ← lineAhead
  op "["
  if ← took (op "]") then node .list line []
  else elementsAfter again .listComp .list line (← again.one .starNamed) "]"

def dictEntry : Reads (Option Tree × Tree) := do
  if ← took (op "**") then return (none, ← again.one .bitwiseOr)
  else
    let key ← again.one .expression <* op ":"
    return (some key, ← again.one .expression)

/-- The rest of a dictionary after its first entry: all keys come before all values. -/
def dictRest (line : Nat) (first : Option Tree × Tree) : Reads Tree := do
  let all := first :: (← commaRest (dictEntry again) <* op "\x7d")
  node .dict line (all.filterMap (·.1) ++ all.map (·.2))

def braced : Reads Tree := do
  let line ← lineAhead
  op "\x7b"
  if ← took (op "\x7d") then node .dict line []
  else if ← opAhead "**" then dictRest again line (← dictEntry again)
  else
    let named ← nameThenOp ":="
    let first ← again.one .starNamed
    if (← opAhead ":") && !named && !isStarred first then
      let value ← op ":" *> again.one .expression
      if ← forAhead then comprehended again .dictComp line [first, value] "\x7d"
      else dictRest again line (some first, value)
    else elementsAfter again .setComp .set line first "\x7d"

def constantWord : Reads Tree := spanning .constant (oneOf .keyword ["True", "False", "None"] *> pure [])

def number : Reads Token := do
  let t ← ofKind .number
  check (numberFits t.text.toList)
  return t

def atom : Reads Tree := do
  let line ← lineAhead
  (do node (.name (← identifier)) line []) <|> constantWord <|> strings again <|>
  (number *> node .constant line []) <|> (op "..." *> node .constant line []) <|>
  parenthesised again <|> bracketed again <|> braced again

def primary : Reads Tree := do
  let line ← lineAhead
  extend (fun owner =>
    (do
      let name ← op "." *> identifier
      node (.attribute name) line [owner.inRole .value]) <|>
    (do
      let start ← lineAhead
      let given ← op "(" *> callArguments again start
      node .call line (owner.inRole .callee :: given)) <|>
    (do
      let index ← enclosed "[" (slices again) "]"
      node .subscript line [owner.inRole .value, index])) (← atom again)

def awaited : Reads Tree := do
  if ← keywordAhead "await" then spanning .awaiting do return [← keyword "await" *> primary again]
  else primary again

/-! ## From powers to expressions -/

/-- A power binds tighter than a sign on its left and looser than one on its right. -/
def power : Reads Tree := do
  let line ← lineAhead
  let base ← awaited again
  if ← took (op "**") then node .binaryOp line [base, ← again.one .factor] else pure base

def factor : Reads Tree :=
  (spanning .unaryOp do return [← oneOf .op ["+", "-", "~"] *> again.one .factor]) <|> power again

def term : Reads Tree := leftJoined ["*", "/", "//", "%", "@"] (factor again)

def sum : Reads Tree := leftJoined ["+", "-"] (term again)

def shift : Reads Tree := leftJoined ["<<", ">>"] (sum again)

def bitwiseOr : Reads Tree :=
  leftJoined ["|"] (leftJoined ["^"] (leftJoined ["&"] (shift again)))

def comparisons : Reads Tree := joined .compare comparison (bitwiseOr again)

def inversion : Reads Tree := do
  if ← keywordAhead "not" then spanning .unaryOp do return [← keyword "not" *> again.one .inversion]
  else comparisons again

def disjunction : Reads Tree :=
  joined .boolOp (keyword "or") (joined .boolOp (keyword "and") (inversion again))

end

/-! ## Parameters -/

structure ParameterState where
  positionalOnly : List Tree := []
  positional : List Tree := []
  rest : Option Tree := none
  keywordOnly : List Tree := []
  keywordDefaults : List Tree := []
  restKeyword : Option Tree := none
  defaults : List Tree := []
  /-- A star has been read, with or without a name. -/
  starred : Bool := false
  /-- A bare star still needs a parameter after it. -/
  owed : Bool := false

def ParameterState.parts (s : ParameterState) : List Tree :=
  allIn .positionalOnly s.positionalOnly ++ allIn .positional s.positional ++
    allIn .restPositional s.rest.toList ++ allIn .keywordOnly s.keywordOnly ++
    allIn .defaultValue s.keywordDefaults ++ allIn .restKeyword s.restKeyword.toList ++
    allIn .defaultValue s.defaults

section
variable (again : Readers)

/-- The name of a parameter with its annotation; the annotation of the rest of the positional ones
may be starred. -/
def parameterName (annotated starAllowed : Bool) : Reads Tree := do
  let line ← lineAhead
  let name ← identifier
  let plain := again.one .expression
  let isNoted ← if annotated then took (op ":") else pure false
  let hint ← if isNoted then pure [← if starAllowed then starredOr (again.one .bitwiseOr) plain else plain] else pure []
  node (.parameter name) line (allIn .note hint)

def parameterItem (annotated : Bool) (s : ParameterState) : Reads ParameterState := do
  check s.restKeyword.isNone
  if ← took (op "/") then
    check (!s.positional.isEmpty && s.positionalOnly.isEmpty && !s.starred)
    return { s with positionalOnly := s.positional, positional := [] }
  else if ← took (op "**") then
    check !s.owed
    let name ← parameterName again annotated false
    check !(← opAhead "=")
    return { s with restKeyword := some name }
  else if ← took (op "*") then
    check !s.starred
    if ← opAhead "," then return { s with starred := true, owed := true }
    let name ← parameterName again annotated true
    check !(← opAhead "=")
    return { s with starred := true, rest := some name }
  else
    let name ← parameterName again annotated false
    let value ← if ← took (op "=") then pure [← again.one .expression] else pure []
    if s.starred then
      return { s with
        keywordOnly := s.keywordOnly ++ [name], keywordDefaults := s.keywordDefaults ++ value, owed := false }
    check (!value.isEmpty || s.defaults.isEmpty)
    return { s with positional := s.positional ++ [name], defaults := s.defaults ++ value }

def moreParameters (annotated : Bool) : Nat → ParameterState → Reads ParameterState
  | 0, s => pure s
  | n + 1, s => (do moreParameters annotated n (← op "," *> parameterItem again annotated s)) <|> pure s

def parameters (annotated : Bool) (close : String) : Reads Tree := do
  let line ← lineAhead
  if ← opAhead close then return .node .parameters .parameterList line line []
  let all ← moreParameters again annotated (← get).count (← parameterItem again annotated {})
  skip (op ",")
  check (!all.owed && (← opAhead close))
  return (← node .parameterList line all.parts).inRole .parameters

def lambda : Reads Tree := spanning .lambda do
  let given ← keyword "lambda" *> parameters again false ":" <* op ":"
  return [given, ← again.one .expression]

def expression : Reads Tree := do
  let line ← lineAhead
  if ← keywordAhead "lambda" then lambda again
  else
    let first ← disjunction again
    (do
      let condition ← keyword "if" *> disjunction again <* keyword "else"
      node .conditional line [condition, first, ← again.one .expression]) <|> pure first

def namedExpression : Reads Tree := do
  let line ← lineAhead
  if ← nameThenOp ":=" then
    let target ← node (.name (← identifier)) line []
    let value ← op ":=" *> expression again
    node .namedExpr line [target.inRole .target, value.inRole .value]
  else
    let value ← expression again
    check !(← opAhead ":=")
    return value

def starNamed : Reads Tree := starredOr (bitwiseOr again) (namedExpression again)

def starExpressions : Reads Tree := tupled (starredOr (bitwiseOr again) (expression again))

def yieldExpression : Reads Tree := do
  let line ← lineAhead
  keyword "yield"
  if ← took (keyword "from") then node .yieldingFrom line [← expression again]
  else node .yielding line (← maybe (starExpressions again)).toList

def yieldOrStarExpressions : Reads Tree := do
  if ← keywordAhead "yield" then yieldExpression again else starExpressions again

end

end CodeAudit.Python
