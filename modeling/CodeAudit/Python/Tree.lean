import CodeAudit.Python.Identifier

/-!
# Syntax trees of Python

Each node has a tag that says what it is, the lines on which it starts and ends, and its parts in the order of the
language's abstract syntax. The role of a node says in which place it stands below its parent, so that the statements
of a block, the arguments of a call or the targets of an assignment are found by role.

`preorder` visits a node, then its parts one after the other, each with all below it; `levelOrder` visits a node, then
all its parts, then all parts of those.
-/

namespace CodeAudit.Python

inductive Role where
  | part
  | body
  | alternative
  | cleanup
  | handler
  | case
  | callee
  | argument
  | keyword
  | target
  | value
  | parameters
  | positionalOnly
  | positional
  | restPositional
  | keywordOnly
  | restKeyword
  | defaultValue
  | decorator
  | note
  deriving DecidableEq, Repr

inductive Tag where
  | module
  | functionDef (name : Identifier)
  | asyncFunctionDef (name : Identifier)
  | classDef (name : Identifier)
  | returnStmt
  | deleteStmt
  | assign
  | augmentedAssign
  | annotatedAssign
  | forLoop
  | asyncForLoop
  | whileLoop
  | ifStmt
  | withBlock
  | asyncWithBlock
  | matchStmt
  | raiseStmt
  | tryBlock
  | tryGroupBlock
  | assertStmt
  | importStmt
  | importFrom
  | globalStmt
  | nonlocalStmt
  | exprStmt
  | passStmt
  | breakStmt
  | continueStmt
  | boolOp
  | namedExpr
  | binaryOp
  | unaryOp
  | lambda
  | conditional
  | dict
  | set
  | listComp
  | setComp
  | dictComp
  | generator
  | awaiting
  | yielding
  | yieldingFrom
  | compare
  | call
  | formattedValue
  | joinedText
  | constant
  | attribute (name : Identifier)
  | subscript
  | starred
  | name (id : Identifier)
  | list
  | tuple
  | slice
  | comprehension
  | exceptHandler
  | parameterList
  | parameter (name : Identifier)
  | keywordArgument (name : Option Identifier)
  | alias
  | withItem
  | matchCase
  | pattern
  deriving DecidableEq

/-- A node with the role it plays in the one above it. -/
inductive Tree where
  | node (role : Role) (tag : Tag) (line endLine : Nat) (parts : List Tree)

namespace Tree

def role : Tree → Role
  | node r _ _ _ _ => r

def tag : Tree → Tag
  | node _ t _ _ _ => t

def line : Tree → Nat
  | node _ _ l _ _ => l

def endLine : Tree → Nat
  | node _ _ _ e _ => e

def parts : Tree → List Tree
  | node _ _ _ _ ps => ps

def inRole (r : Role) : Tree → Tree
  | node _ t l e ps => node r t l e ps

def partsIn (r : Role) (t : Tree) : List Tree := t.parts.filter (·.role == r)

/-! ## Orders of visiting -/

mutual

/-- The node, then each of its parts with all below it. -/
def preorder : Tree → List Tree
  | node r t l e ps => node r t l e ps :: preorderAll ps

def preorderAll : List Tree → List Tree
  | [] => []
  | t :: ts => t.preorder ++ preorderAll ts

end

mutual

def height : Tree → Nat
  | node _ _ _ _ ps => heightAll ps + 1

def heightAll : List Tree → Nat
  | [] => 0
  | t :: ts => max t.height (heightAll ts)

end

/-- A level of nodes, then the levels below it, down to the given number of levels. -/
def levels : Nat → List Tree → List Tree
  | 0, _ => []
  | n + 1, ts => ts ++ levels n (ts.flatMap parts)

/-- The nodes level by level, from the top. -/
def levelOrder (t : Tree) : List Tree := levels t.height [t]

/-! ## Names -/

/-- The dotted name that an expression spells: names joined by points; anything else spells the
empty text. -/
def dottedName : Tree → String
  | node _ (.name id) _ _ _ => id.text
  | node _ (.attribute attr) _ _ (owner :: _) => owner.dottedName ++ "." ++ attr.text
  | _ => ""

def name? : Tree → Option String
  | node _ (.name id) _ _ _ => some id.text
  | _ => none

def isCall : Tree → Bool
  | node _ .call _ _ _ => true
  | _ => false

def isAssign : Tree → Bool
  | node _ .assign _ _ _ => true
  | _ => false

def functionName? : Tree → Option String
  | node _ (.functionDef name) _ _ _ => some name.text
  | _ => none

def anyFunctionName? : Tree → Option String
  | node _ (.functionDef name) _ _ _ => some name.text
  | node _ (.asyncFunctionDef name) _ _ _ => some name.text
  | _ => none

def calleeName (t : Tree) : String := ((t.partsIn .callee).head?.map dottedName).getD ""

def parameterNames (t : Tree) : List String :=
  (t.partsIn .parameters).flatMap fun ps => (ps.partsIn .positional).filterMap fun p =>
    match p.tag with
    | .parameter name => some name.text
    | _ => none

end Tree

end CodeAudit.Python
