import CodeAudit.Rules.Rule

/-!
# An index of rules

The rules that match calls, by the names they match.
-/

namespace CodeAudit

/-- Rules, and those that match calls by the names they match. -/
structure RuleIndex where
  rules : List Rule
  byName : List (Value × List Rule)

namespace RuleIndex

variable (table : List (Value × List Rule))

def addName (rule : Rule) (name : Value) : List (Value × List Rule) :=
  if table.any (·.1.same name) then
    table.map fun entry => if entry.1.same name then (entry.1, entry.2 ++ [rule]) else entry
  else table ++ [(name, [rule])]

/-- Adds a rule under all its names; only rules that match calls have an entry. -/
def addRule (rule : Rule) : Except Fault (List (Value × List Rule)) := do
  if rule.pattern.isCall then
    return (← rule.pattern.allNames).foldl (fun t name => addName t rule name) table
  return table

def ofRules (rules : List Rule) : Except Fault RuleIndex := do
  return { rules, byName := ← rules.foldlM addRule [] }

variable (index : RuleIndex)

def functionNames : List Value := index.byName.map (·.1)

/-- The rules for calls of a function in a language. -/
def matchCall (function : Value) (language : Value := .str "python") : Except Fault (List Rule) := do
  if !function.hashable then throw .wrongKind
  let candidates := ((index.byName.find? (·.1.same function)).map (·.2)).getD []
  return candidates.filter fun rule => language.isWordOf rule.languages

def ofLanguage (language : Value) : List Rule :=
  index.rules.filter fun rule => language.isWordOf rule.languages

def find? (id : Value) : Option Rule := index.rules.find? (·.id.same id)

def size : Nat := index.rules.length

end RuleIndex

end CodeAudit
