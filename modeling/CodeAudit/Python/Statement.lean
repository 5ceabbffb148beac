import CodeAudit.Python.Pattern
import CodeAudit.Fault
import CodeAudit.Text.Surrogate

/-!
# Statements of Python

The grammar of statements and of whole texts. `Tree.ofSource` gives the tree of a text, or a
fault where there is none.
-/

namespace CodeAudit.Python

/-! ## How deep programs may nest

Reading a program and visiting its tree both stop at a limit of depth. The reader keeps a place for every operator that
waits for its right side; the tree may have only so many levels; and a visit takes two places for a node, three for one
that gets special treatment. It also comes to parts that the tree does not show: operators, and whether a name is read
or written. -/

namespace Tree

/-! ### Reading -/

/-- The places that the reader keeps for a node while it reads the last of its parts. -/
def pending : Tag → Nat
  | .unaryOp | .conditional | .ifStmt => 1
  | .binaryOp | .lambda => 2
  | _ => 0

mutual

def readingDepth : Tree → Nat
  | node _ tag _ _ ps => readingDepthAll (pending tag) ps

/-- The places that the reader needs for the parts of a node, if it keeps some for the last one. -/
def readingDepthAll (kept : Nat) : List Tree → Nat
  | [] => 0
  | [t] => t.readingDepth + kept
  | t :: ts => max t.readingDepth (readingDepthAll kept ts)

end

def mostPlaces : Nat := 5969

def mostLevels : Nat := 2979

/-- The tree, unless the program nests too deep to be read. -/
def readable (t : Tree) : Except Fault Tree :=
  if mostPlaces < t.readingDepth then .error .exhausted
  else if mostLevels < t.height then .error .tooDeep
  else .ok t

/-! ### Visiting -/

/-- The places that a visit takes for a node while it is at its parts, and for its parts that the tree does not show. -/
structure Visitor where
  own : Tag → Nat
  hidden : Tag → Nat

mutual

/-- The places that a visit needs. -/
def visitDepth (v : Visitor) : Tree → Nat
  | node _ tag _ _ ps => v.own tag + max (v.hidden tag) (visitDepthAll v ps)

def visitDepthAll (v : Visitor) : List Tree → Nat
  | [] => 0
  | t :: ts => max (t.visitDepth v) (visitDepthAll v ts)

end

/-- Refuses a tree that a visit cannot follow to its leaves in the room that it has. -/
def visitable (v : Visitor) (room : Nat) (t : Tree) : Except Fault Unit :=
  if room < t.visitDepth v then .error .tooDeep else .ok ()

/-- A visit asks each node for its parts, and comes to its operators and to how it is used. -/
def unshown : Tag → Nat
  | .name _ | .attribute _ | .subscript | .starred | .list | .tuple => 3
  | .boolOp | .binaryOp | .unaryOp | .compare | .augmentedAssign => 3
  | _ => 1

/-- The visit that makes records of functions. -/
def measuring : Visitor where
  own
    | .functionDef _ | .constant => 3
    | _ => 2
  hidden := unshown

/-- The visit that follows tainted variables; it does not go into names. -/
def tainting : Visitor where
  own
    | .assign | .call | .constant => 3
    | _ => 2
  hidden
    | .name _ => 0
    | tag => unshown tag

/-- The visit that lists the calls of a function. -/
def calling : Visitor where
  own
    | .call | .constant => 3
    | _ => 2
  hidden := unshown

/-- The number of names that are joined by points to the one at the start. -/
def dottedDepth : Tree → Nat
  | node _ (.attribute _) _ _ (owner :: _) => owner.dottedDepth + 1
  | _ => 0

/-- Refuses a tree in which a call spells too long a dotted name. -/
def spellable (t : Tree) (room : Nat := usualRoom) : Except Fault Unit :=
  if t.levelOrder.any fun c => c.isCall && (c.partsIn .callee).any (room ≤ ·.dottedDepth) then
    .error .tooDeep
  else .ok ()

end Tree

/-! ## Statements -/

def augmentedOperators : List String :=
  ["+=", "-=", "*=", "@=", "/=", "%=", "&=", "|=", "^=", "<<=", ">>=", "**=", "//="]

def dottedModule : Reads Unit := discard (separated (op ".") identifier)

def importedName (name : Reads Unit) : Reads Tree := spanning .alias do
  name
  skip (keyword "as" *> discard identifier)
  return []

def importStatement : Reads Tree := spanning .importStmt do
  keyword "import" *> separated (op ",") (importedName dottedModule)

def importFromStatement : Reads Tree := spanning .importFrom do
  keyword "from"
  let points ← many (oneOf .op [".", "..."])
  if points.isEmpty || !(← keywordAhead "import") then dottedModule
  keyword "import"
  let plain := importedName (discard identifier)
  (do return [← spanning .alias (op "*" *> pure [])]) <|> enclosed "(" (commaSome plain) ")" <|> separated (op ",") plain

section
variable (again : Readers)

/-! ## Simple statements -/

/-- More targets of an assignment, then its value: all but the last must be targets. -/
def assignedChain : Nat → Reads (List Tree × Tree)
  | 0 => failure
  | n + 1 => do
    op "="
    let generator ← keywordAhead "yield"
    let value ← yieldOrStarExpressions again
    if ← opAhead "=" then
      check (!generator && isTarget false value)
      let (targets, last) ← assignedChain n
      return (value :: targets, last)
    else return ([], value)

/-- A statement that starts with an expression: an annotated, augmented or plain assignment, or the
expression alone. -/
def expressionStatement : Reads Tree := do
  let line ← lineAhead
  if ← keywordAhead "yield" then node .exprStmt line [← yieldExpression again]
  else
    let first ← starExpressions again
    if ← took (op ":") then
      check (isSingleTarget first)
      let hint ← again.one .expression
      let value ← maybe (op "=" *> yieldOrStarExpressions again)
      node .annotatedAssign line
        ([first.inRole .target, hint.inRole .note] ++ allIn .value value.toList)
    else if ← opAhead "=" then
      check (isTarget false first)
      let (targets, value) ← assignedChain again (← get).count
      node .assign line (allIn .target (first :: targets) ++ [value.inRole .value])
    else if ← took (oneOf .op augmentedOperators) then
      check (isSingleTarget first)
      let value ← yieldOrStarExpressions again
      node .augmentedAssign line [first.inRole .target, value.inRole .value]
    else node .exprStmt line [first]

def simpleStatement : Reads Tree := do
  let s ← get
  let word := match s.tokens with
    | t :: _ => if t.kind == .keyword then t.text else ""
    | [] => ""
  let alone (tag : Tag) := spanning tag (keyword word *> pure [])
  let scope (tag : Tag) := spanning tag (keyword word *> separated (op ",") identifier *> pure [])
  match word with
  | "return" => spanning .returnStmt do
    return allIn .value (← keyword word *> maybe (starExpressions again)).toList
  | "import" => importStatement
  | "from" => importFromStatement
  | "raise" => spanning .raiseStmt do
    let what ← keyword word *> maybe (again.one .expression)
    let cause ← if what.isSome then maybe (keyword "from" *> again.one .expression) else pure none
    return what.toList ++ cause.toList
  | "pass" => alone .passStmt
  | "break" => alone .breakStmt
  | "continue" => alone .continueStmt
  | "del" => spanning .deleteStmt do
    let targets ← keyword word *> commaSome (again.one .primary)
    check (allTargets true targets)
    return allIn .target targets
  | "assert" => spanning .assertStmt do
    let test ← keyword word *> again.one .expression
    return test :: (← maybe (op "," *> again.one .expression)).toList
  | "global" => scope .globalStmt
  | "nonlocal" => scope .nonlocalStmt
  | _ => expressionStatement again

def simpleStatements : Reads (List Tree) :=
  separated (op ";") (simpleStatement again) <* skip (op ";") <* ofKind .newline

/-! ## Compound statements -/

def colonBlock : Reads (List Tree) := op ":" *> again .block

def bodyBlock : Reads (List Tree) := allIn .body <$> colonBlock again

/-- The block after a word in a role, if the word stands here. -/
def blockAfter (word : String) (role : Role) : Reads (List Tree) := do
  if ← took (keyword word) then return allIn role (← colonBlock again) else return []

def elseBlock : Reads (List Tree) := blockAfter again "else" .alternative

def ifStatement (word : String) : Reads Tree := spanning .ifStmt do
  let test ← keyword word *> namedExpression again
  let body ← bodyBlock again
  let other ← if ← keywordAhead "elif" then allIn .alternative <$> again .elseIf else elseBlock again
  return test :: body ++ other

def whileStatement : Reads Tree := spanning .whileLoop do
  let test ← keyword "while" *> namedExpression again
  return test :: (← bodyBlock again) ++ (← elseBlock again)

def forStatement (tag : Tag) (line : Nat) : Reads Tree := do
  let target ← keyword "for" *> starTargets again <* keyword "in"
  let source ← starExpressions again
  let body ← bodyBlock again
  node tag line (target.inRole .target :: source :: body ++ (← elseBlock again))

def withItem : Reads Tree := spanning .withItem do
  let context ← expression again
  if ← took (keyword "as") then
    let target ← starTarget again
    check (← ahead .op [",", ")", ":"])
    return [context, target.inRole .target]
  else return [context]

def withStatement (tag : Tag) (line : Nat) : Reads Tree := do
  keyword "with"
  let (items, body) ← (do return (← enclosed "(" (commaSome (withItem again)) ")", ← bodyBlock again)) <|>
    (do return (← separated (op ",") (withItem again), ← bodyBlock again))
  node tag line (items ++ body)

def handler (group : Bool) : Reads Tree := do
  let found ← spanning .exceptHandler do
    keyword "except"
    if group then op "*"
    let kind ← if !group && (← opAhead ":") then pure none else
      some <$> again.one .expression <* skip (keyword "as" *> discard identifier)
    return kind.toList ++ (← bodyBlock again)
  return found.inRole .handler

def tryStatement : Reads Tree := do
  let line ← lineAhead
  let body ← keyword "try" *> bodyBlock again
  let group ← aheadIs 1 fun t => t.kind == .op && t.text == "*"
  let grouped := group && (← keywordAhead "except")
  let handlers ← many (handler again grouped)
  let other ← if handlers.isEmpty then pure [] else elseBlock again
  let cleanup ← blockAfter again "finally" .cleanup
  check (!handlers.isEmpty || !cleanup.isEmpty)
  node (if grouped then .tryGroupBlock else .tryBlock) line (body ++ handlers ++ other ++ cleanup)

/-- A function definition; it starts on the line of its first keyword, after any decorators. -/
def functionStatement (isAsync : Bool) (line : Nat) (decorators : List Tree) : Reads Tree := do
  let name ← keyword "def" *> identifier
  let given ← enclosed "(" (parameters again true ")") ")"
  let result ← maybe (op "->" *> again.one .expression)
  let body ← bodyBlock again
  node (if isAsync then .asyncFunctionDef name else .functionDef name) line
    (given :: body ++ allIn .decorator decorators ++ allIn .note result.toList)

def classStatement (decorators : List Tree) : Reads Tree := do
  let line ← lineAhead
  let name ← keyword "class" *> identifier
  let bases ← if ← opAhead "(" then enclosed "(" (arguments again) ")" else pure []
  node (.classDef name) line (bases ++ (← bodyBlock again) ++ allIn .decorator decorators)

def asyncStatement (decorators : List Tree) : Reads Tree := do
  let line ← lineAhead
  keyword "async"
  if ← keywordAhead "def" then functionStatement again true line decorators
  else
    check decorators.isEmpty
    if ← keywordAhead "with" then withStatement again .asyncWithBlock line
    else forStatement again .asyncForLoop line

def decorated : Reads Tree := do
  let decorators ← many (op "@" *> namedExpression again <* ofKind .newline)
  check !decorators.isEmpty
  let line ← lineAhead
  if ← keywordAhead "def" then functionStatement again false line decorators
  else if ← keywordAhead "class" then classStatement again decorators
  else asyncStatement again decorators

def indented {α : Type} (r : Reads α) : Reads (List α) := do
  let found ← ofKind .newline *> ofKind .indent *> many r <* ofKind .dedent
  check !found.isEmpty
  return found

def matchCase : Reads Tree := do
  let found ← spanning .matchCase do
    let what ← oneOf .name ["case"] *> casePatterns again
    let guard ← maybe (keyword "if" *> namedExpression again)
    return what :: guard.toList ++ (← bodyBlock again)
  return found.inRole .case

def matchStatement : Reads Tree := spanning .matchStmt do
  let subject ← oneOf .name ["match"] *> tupled (starNamed again)
  check !(isStarred subject)
  return subject :: (← op ":" *> indented (matchCase again))

def statement : Reads (List Tree) := do
  let line ← lineAhead
  let s ← get
  let single := fun (r : Reads Tree) => (do return [← r] : Reads (List Tree))
  match s.tokens with
  | [] => failure
  | t :: _ =>
    if t.kind == .keyword then
      match t.text with
      | "def" => single (functionStatement again false line [])
      | "class" => single (classStatement again [])
      | "async" => single (asyncStatement again [])
      | "if" => single (ifStatement again "if")
      | "while" => single (whileStatement again)
      | "for" => single (forStatement again .forLoop line)
      | "with" => single (withStatement again .withBlock line)
      | "try" => single (tryStatement again)
      | _ => simpleStatements again
    else if t.kind == .op && t.text == "@" then single (decorated again)
    else if t.kind == .name && t.text == "match" then
      single (matchStatement again) <|> simpleStatements again
    else simpleStatements again

def block : Reads (List Tree) := do
  if ← aheadIs 0 (·.kind == .newline) then List.flatten <$> indented (statement again)
  else simpleStatements again

def readGoal : Goal → Reads (List Tree)
  | .block => block again
  | g => do return [← match g with
    | .expression => expression again
    | .namedExpression => namedExpression again
    | .starNamed => starNamed again
    | .starExpressions => starExpressions again
    | .yieldOrStarExpressions => yieldOrStarExpressions again
    | .disjunction => disjunction again
    | .bitwiseOr => bitwiseOr again
    | .inversion => inversion again
    | .factor => factor again
    | .primary => primary again
    | .pattern => pattern again
    | .starPattern => starPattern again
    | .elseIf => ifStatement again "elif"
    | .block => failure]

end

/-- The reader of a goal that goes at most so deep. -/
def readers : Nat → Readers
  | 0 => fun _ => failure
  | n + 1 => readGoal (readers n)

def Tree.ofChars? (cs : List Char) : Option Tree :=
  if cs.contains '\x00' then none
  else
    match tokens? 1 cs with
    | none => none
    | some tokens =>
      match many (statement (readers (cs.length + 2))) (.ofTokens tokens 1) with
      | some (found, rest) =>
        if rest.tokens.isEmpty then
          some (.node .part .module 1 rest.lastLine (allIn .body found.flatten))
        else none
      | none => none

/-- The tree of a whole text. Text that cannot be encoded, is no program or nests too deep is a
fault. -/
def Tree.ofSource (source : String) : Except Fault Tree :=
  if Text.isEncodable source then
    match Tree.ofChars? source.toList with
    | some t => t.readable
    | none => .error .badSource
  else .error .unencodable

end CodeAudit.Python
