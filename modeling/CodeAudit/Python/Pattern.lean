import CodeAudit.Python.Expression

/-!
# Patterns of Python

The patterns that the cases of a `match` statement compare with.
-/

namespace CodeAudit.Python

def patternNumber : Reads Bool := do
  let t ← number
  return t.text.endsWith "j" || t.text.endsWith "J"

def numberPattern : Reads Tree := spanning .constant do
  skip (op "-")
  let imaginary ← patternNumber
  if ← took (oneOf .op ["+", "-"]) then check (!imaginary && (← patternNumber))
  return []

def captureName : Reads Unit := do
  let name ← identifier
  check (name.text != "_" && !(← ahead .op [".", "(", "="]))

def dottedPattern : Reads (Tree × Nat) := do
  let line ← lineAhead
  let first ← node (.name (← identifier)) line []
  let names ← many (op "." *> identifier)
  let whole ← names.foldlM (fun owner name => node (.attribute name) line [owner.inRole .value]) first
  return (whole, names.length)

section
variable (again : Readers)

def literalPattern : Reads Tree := numberPattern <|> strings again <|> constantWord

/-- An entry of a mapping pattern; the key is a literal or a dotted name. -/
def mappingEntry : Reads (Tree × Tree) := do
  let key ← literalPattern again <|> (do
    let (name, points) ← dottedPattern
    check (0 < points)
    return name)
  return (key, ← op ":" *> again.one .pattern)

def mappingPattern : Reads Tree := spanning .pattern do
  op "\x7b"
  let rest := op "**" *> captureName *> skip (op ",")
  let entries ← if ← ahead .op ["\x7d", "**"] then pure [] else separated (op ",") (mappingEntry again)
  if ← opAhead "**" then
    check entries.isEmpty
    rest
  else if ← took (op ",") then
    check !entries.isEmpty
    skip rest
  op "\x7d"
  return entries.map (·.1) ++ entries.map (·.2)

/-- An argument of a class pattern: named ones come after the others. -/
def classArgument : Reads (Bool × Tree) := do
  let named ← nameThenOp "="
  if named then discard identifier *> op "="
  return (named, ← again.one .pattern)

def classPattern (line : Nat) (owner : Tree) : Reads Tree := do
  let given ← enclosed "(" (commaList (classArgument again)) ")"
  check ((given.dropWhile fun a => !a.1).all fun a => a.1)
  node .pattern line (owner :: given.map (·.2))

def namePattern : Reads Tree := do
  let line ← lineAhead
  if ← took (oneOf .name ["_"]) then node .pattern line []
  else
    let (name, points) ← dottedPattern
    if ← opAhead "(" then classPattern again line name
    else
      check !(← opAhead "=")
      node .pattern line (if points == 0 then [] else [name])

def sequenceRest (line : Nat) (before : List Tree) (close : String) : Reads Tree := do
  let elements ← commaList (again.one .starPattern) <* op close
  node .pattern line (before ++ elements)

def parenthesisedPattern : Reads Tree := do
  let line ← lineAhead
  op "("
  if ← opAhead ")" then sequenceRest again line [] ")"
  else
    let starred ← opAhead "*"
    let first ← again.one .starPattern
    if ← took (op ",") then sequenceRest again line [first] ")"
    else
      check !starred
      op ")"
      return first

def closedPattern : Reads Tree := do
  let line ← lineAhead
  if ← opAhead "(" then parenthesisedPattern again
  else if ← took (op "[") then sequenceRest again line [] "]"
  else if ← opAhead "\x7b" then mappingPattern again
  else if ← aheadIs 0 (·.kind == .name) then namePattern again
  else node .pattern line [← literalPattern again]

def pattern : Reads Tree := do
  let line ← lineAhead
  let whole ← joined .pattern (op "|") (closedPattern again)
  if ← took (keyword "as") then captureName *> node .pattern line [whole] else pure whole

def starPattern : Reads Tree := do
  let line ← lineAhead
  if ← took (op "*") then (oneOf .name ["_"] <|> captureName) *> node .pattern line [] else pattern again

def casePatterns : Reads Tree := do
  let line ← lineAhead
  let starred ← opAhead "*"
  let first ← starPattern again
  if ← took (op ",") then node .pattern line (first :: (← commaList (again.one .starPattern)))
  else
    check !starred
    return first

end

end CodeAudit.Python
