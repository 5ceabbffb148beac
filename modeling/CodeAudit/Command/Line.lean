import CodeAudit.Decimal.Reader
import CodeAudit.Files.Tree

/-!
# Command lines

Words are read from left to right: an option takes its value from the same word or from the next one, whatever that is,
and words that are no options are operands. Of an option given twice the last value counts, unless it may be repeated.

A command line is refused for its words before it is refused for its values, and a wish for help comes in between.
Values are looked at in the order in which they are given, those of options first.
-/

namespace CodeAudit.Command

open Text

inductive Kind where
  | text
  | whole
  | path (mustExist : Bool)
  | choice (words : List String)

/-- An option. One without a kind is a switch and takes no value. -/
structure Setting where
  names : List String
  kind : Option Kind := none
  repeats : Bool := false
  about : String

structure Parameter where
  name : String
  kind : Kind := .text
  default : Option String := none

structure Grammar where
  about : String
  settings : List Setting := []
  parameters : List Parameter := []

inductive Refusal where
  | unknownOption (name : String)
  | missingValue (name : String)
  | needlessValue (name : String)
  | badValue (name value : String)
  | missingParameter (name : String)
  | extraOperand (word : String)
  | unknownCommand (name : String)
  | missingCommand
  /-- A value that is given for a path and cannot be one. -/
  | noPath (fault : Fault)

def Refusal.message : Refusal → String
  | unknownOption name => "No such option: " ++ name
  | missingValue name => s!"Option '{name}' requires an argument."
  | needlessValue name => s!"Option '{name}' does not take a value."
  | badValue name value => s!"Invalid value for '{name}': {value}"
  | missingParameter name => s!"Missing argument '{name}'."
  | extraOperand word => s!"Got unexpected extra argument ({word})"
  | unknownCommand name => s!"No such command '{name}'."
  | missingCommand => "Missing command."
  | noPath _ => "Not a path."

def Setting.help : Setting := { names := ["--help"], about := "Show this message and exit." }

/-- The name under which an option's values are found: its longest one. -/
def Setting.key (c : Setting) : String := c.names.foldl (fun a b => if a.length < b.length then b else a) ""

/-! ## Words -/

/-- The words of a command line, sorted out: the options with their values, in order, and the operands. -/
structure Words where
  given : List (Setting × String) := []
  operands : List String := []

def Words.after (given : List (Setting × String)) (w : Words) : Words := { w with given := given ++ w.given }

/-- What a word with options says: the options that are complete, and one that waits for its value. -/
structure OptionWord where
  given : List (Setting × String)
  waiting : Option Setting := none

/-- Options of one letter each behind one dash. One that takes a value takes the rest of the word. -/
def readLetters (settings : List Setting) : List Char → Except Refusal OptionWord
  | [] => .ok { given := [] }
  | c :: rest =>
    let name := String.ofList ['-', c]
    match settings.find? (·.names.contains name) with
    | none => .error (.unknownOption name)
    | some setting => match setting.kind with
      | none => do
        let word ← readLetters settings rest
        return { word with given := (setting, "") :: word.given }
      | some _ =>
        if rest.isEmpty then .ok { given := [], waiting := some setting }
        else .ok { given := [(setting, String.ofList rest)] }

def readOption (settings : List Setting) (word : String) : Except Refusal OptionWord :=
  let (name, value?) := match Chars.cutAt? ['='] word.toList with
    | some (name, value) => (String.ofList name, some (String.ofList value))
    | none => (word, none)
  match settings.find? fun c => 2 < name.length && c.names.contains name with
  | none =>
    if startsWith word "--" then .error (.unknownOption name)
    else readLetters settings (word.toList.drop 1)
  | some setting => match setting.kind, value? with
    | none, none => .ok { given := [(setting, "")] }
    | none, some _ => .error (.needlessValue name)
    | some _, none => .ok { given := [], waiting := some setting }
    | some _, some value => .ok { given := [(setting, value)] }

/-- Sorts out the words of a command line. Behind two dashes all words are operands; where options have
to come first, so are all words from the first operand on. -/
def readWords (settings : List Setting) (optionsFirst : Bool) : List String → Except Refusal Words
  | [] => .ok {}
  | word :: rest =>
    if word == "--" then .ok { operands := rest }
    else if startsWith word "-" && 1 < word.length then
      match readOption settings word with
      | .error refusal => .error refusal
      | .ok { given, waiting := none } => (readWords settings optionsFirst rest).map (.after given)
      | .ok { given, waiting := some setting } => match rest with
        | [] => .error (.missingValue setting.key)
        | value :: rest => (readWords settings optionsFirst rest).map (.after (given ++ [(setting, value)]))
    else if optionsFirst then .ok { operands := word :: rest }
    else (readWords settings optionsFirst rest).map fun w => { w with operands := word :: w.operands }

/-! ## Values -/

/-- Letters that stand for two, or for another letter, when case does not count. -/
def ligatures : List (Char × List Char) :=
  [('ſ', ['s']), ('ß', ['s', 's']), ('ﬀ', ['f', 'f']), ('ﬁ', ['f', 'i']), ('ﬂ', ['f', 'l']),
   ('ﬃ', ['f', 'f', 'i']), ('ﬄ', ['f', 'f', 'l']), ('ﬅ', ['s', 't']), ('ﬆ', ['s', 't'])]

def folded (word : String) : String :=
  String.ofList ((lower word).toList.flatMap fun c => (ligatures.lookup c).getD [c])

def Kind.accept? (files : FileTree) (value : String) : Kind → Option String
  | .text => some value
  | .whole => (Decimal.readInt? value).map toString
  | .path mustExist => if !mustExist || files.isThere value then some value else none
  | .choice words => words.find? (· == folded value)

/-- What keeps a value of a kind from being looked up among the files at all. -/
def Kind.fault? (value : String) : Kind → Option Fault
  | .path _ => (Path.fault? value).filter (!·.isOfFiles)
  | _ => none

def accept (files : FileTree) (name : String) (kind : Kind) (value : String) : Except Refusal String :=
  match kind.fault? value, kind.accept? files value with
  | some fault, _ => .error (.noPath fault)
  | none, some meant => .ok meant
  | none, none => .error (.badValue name value)

structure Request where
  options : List (String × List String)
  operands : List String

namespace Request

variable (r : Request) (name : String)

def all : List String := (r.options.lookup name).getD []

def value? : Option String := (r.all name).getLast?

def nonempty? : Option String := (r.value? name).filter (!·.isEmpty)

def isOn : Bool := !(r.all name).isEmpty

def operand (place : Nat) : String := r.operands[place]?.getD ""

end Request

def optionValues (files : FileTree) (words : Words) (setting : Setting) : Except Refusal (List String) :=
  let given := (words.given.filter fun entry => entry.1.key == setting.key).map (·.2)
  match setting.kind with
  | none => .ok given
  | some kind => (if setting.repeats then given else given.getLast?.toList).mapM (accept files setting.key kind)

def givenValues (files : FileTree) (words : Words) (settings : List Setting) :
    Except Refusal (List (String × List String)) :=
  let keys := (words.given.map (·.1.key)).eraseDups
  (keys.filterMap fun key => settings.find? (·.key == key)).mapM fun setting => do
    return (setting.key, ← optionValues files words setting)

def operandValues (files : FileTree) : List Parameter → List String → Except Refusal (List String)
  | [], [] => .ok []
  | [], word :: _ => .error (.extraOperand word)
  | p :: ps, [] => match p.default with
    | none => .error (.missingParameter p.name)
    | some value => do return (← accept files p.name p.kind value) :: (← operandValues files ps [])
  | p :: ps, word :: words => do
    return (← accept files p.name p.kind word) :: (← operandValues files ps words)

inductive Wish where
  | help
  | run (request : Request)

def Grammar.read (g : Grammar) (files : FileTree) (line : List String) : Except Refusal Wish := do
  let words ← readWords (g.settings ++ [.help]) false line
  if words.given.any fun entry => entry.1.key == Setting.help.key then return .help
  let options ← givenValues files words g.settings
  return .run { options, operands := ← operandValues files g.parameters words.operands }

/-! ## Help texts

How a command is called, what it is for, and a table of its options. Lines have a limited width; the second column of a
table starts behind the longest entry of the first, but not too far to the right: a longer entry stands on a line of its
own. -/

def helpWidth : Nat := 78

/-- The width up to which an entry sets the second column of a table. -/
def columnLimit : Nat := 30

def setLines (width : Nat) (line : String) : List String → List String
  | [] => if line.isEmpty then [] else [line]
  | word :: rest =>
    if line.isEmpty then setLines width word rest
    else if line.length + 1 + word.length ≤ width then setLines width (line ++ " " ++ word) rest
    else line :: setLines width word rest

def wrapped (width : Nat) (text : String) : List String :=
  setLines width "" ((Chars.words text.toList).map String.ofList)

def blanks (n : Nat) : String := String.ofList (List.replicate n ' ')

def rowLines (start : Nat) (row : String × String) : List String :=
  let first := "  " ++ row.1
  let indent := blanks (start + 2)
  match wrapped (helpWidth - start - 2) row.2 with
  | [] => [first]
  | line :: more =>
    let rest := more.map (indent ++ ·)
    if row.1.length + 2 ≤ start then (padEnd (start + 2) first ++ line) :: rest
    else first :: (indent ++ line) :: rest

def tableLines (heading : String) (rows : List (String × String)) : List String :=
  let widest := (rows.map (·.1.length)).foldl max 0
  ["", heading ++ ":"] ++ rows.flatMap (rowLines (min widest columnLimit + 2))

def Kind.sample : Kind → String
  | .text => "TEXT"
  | .whole => "INTEGER"
  | .path _ => "PATH"
  | .choice words => "[" ++ join "|" words ++ "]"

def Setting.shown (s : Setting) : String :=
  let names := s.names.mergeSort fun a b => decide (a.length ≤ b.length)
  match s.kind with
  | none => join ", " names
  | some kind => join ", " names ++ " " ++ kind.sample

def Parameter.shown (p : Parameter) : String :=
  let name := upper p.name
  if p.default.isSome then "[" ++ name ++ "]" else name

def settingLines (settings : List Setting) : List String :=
  tableLines "Options" ((settings ++ [Setting.help]).map fun s => (s.shown, s.about))

def Grammar.help (g : Grammar) (call : String) : String :=
  let parameters := g.parameters.map (" " ++ ·.shown)
  join "\n" (["Usage: " ++ call ++ " [OPTIONS]" ++ join "" parameters, ""]
    ++ (wrapped (helpWidth - 2) g.about).map ("  " ++ ·) ++ settingLines g.settings)

/-! ### Commands of a program -/

def cutWords (width : Nat) (words : List String) : List String :=
  let fits := fun n => decide ((join " " (words.take n)).length + 3 ≤ width)
  words.take ((((List.range (words.length + 1)).filter fits).getLast?).getD 0)

def summary (width : Nat) (text : String) : String :=
  let words := (Chars.words text.toList).map String.ofList
  let sentence := match words.findIdx? (Text.endsWith · ".") with
    | some i => words.take (i + 1)
    | none => words
  let whole := join " " sentence
  if whole.length ≤ width then whole else join " " (cutWords width sentence.dropLast) ++ "..."

def programHelp (call about : String) (settings : List Setting) (commands : List (String × Grammar)) : String :=
  let sorted := commands.mergeSort fun a b => decide (a.1 ≤ b.1)
  let widest := (sorted.map (·.1.length)).foldl max 0
  join "\n" (["Usage: " ++ call ++ " [OPTIONS] COMMAND [ARGS]...", ""]
    ++ (wrapped (helpWidth - 2) about).map ("  " ++ ·) ++ settingLines settings
    ++ tableLines "Commands" (sorted.map fun c => (c.1, summary (helpWidth - 6 - widest) c.2.about)))

end CodeAudit.Command
