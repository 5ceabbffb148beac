import CodeAudit.Text.Form

/-!
# Names of programs

A name is written with letters, digits and underscores, and with characters above ASCII of many kinds.
-/

namespace CodeAudit.Python

def mayContinueName (c : Char) : Bool :=
  Text.isAsciiLetter c || Text.isAsciiDigit c || c == '_' || !Text.isAscii c

/-- A text of characters that continue names. -/
structure Identifier where
  text : String
  continues : text.toList.all mayContinueName
  deriving DecidableEq

/-- The common form of a name is a name again: the tables of forms have characters of names only. -/
def Identifier.commonForm (name : Identifier) : Identifier :=
  if h : (Text.commonForm name.text).toList.all mayContinueName then ⟨Text.commonForm name.text, h⟩ else name

end CodeAudit.Python
