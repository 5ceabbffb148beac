import CodeAudit.Host
import CodeAudit.Python.Functions
import CodeAudit.Table.Csv

/-!
# Running a benchmark

Each sample is analyzed by itself, as a file of its language; it is detected when something is found.
Code that cannot be analyzed counts as clean.
-/

namespace CodeAudit.Benchmark

/-! ## Scores of a benchmark

Each sample is a true or false positive or negative, counted over all and for each kind. The usual rates are defined
for any arithmetic, so that laws can be stated exactly while reports compute with doubles. -/

inductive Outcome where
  | truePositive
  | falsePositive
  | trueNegative
  | falseNegative
  deriving DecidableEq

namespace Outcome

def of (detected vulnerable : Bool) : Outcome :=
  match detected, vulnerable with
  | true, true => .truePositive
  | true, false => .falsePositive
  | false, true => .falseNegative
  | false, false => .trueNegative

def word : Outcome → String
  | truePositive => "TP"
  | falsePositive => "FP"
  | trueNegative => "TN"
  | falseNegative => "FN"

end Outcome

structure Counts (ν : Type) where
  truePositives : ν
  falsePositives : ν
  trueNegatives : ν
  falseNegatives : ν
  deriving DecidableEq

def Counts.mapM {m : Type → Type} [Monad m] {ν μ : Type} (f : ν → m μ) (c : Counts ν) : m (Counts μ) := do
  return { truePositives := ← f c.truePositives, falsePositives := ← f c.falsePositives
           trueNegatives := ← f c.trueNegatives, falseNegatives := ← f c.falseNegatives }

abbrev Tally := Counts Int

namespace Tally

def empty : Tally := { truePositives := 0, falsePositives := 0, trueNegatives := 0, falseNegatives := 0 }

def add (t : Tally) : Outcome → Tally
  | .truePositive => { t with truePositives := t.truePositives + 1 }
  | .falsePositive => { t with falsePositives := t.falsePositives + 1 }
  | .trueNegative => { t with trueNegatives := t.trueNegatives + 1 }
  | .falseNegative => { t with falseNegatives := t.falseNegatives + 1 }

def ofOutcomes (os : List Outcome) : Tally := os.foldl add empty

def toRecord (t : Tally) : Record :=
  [("TP", .int t.truePositives), ("FP", .int t.falsePositives), ("TN", .int t.trueNegatives),
   ("FN", .int t.falseNegatives)]

end Tally

/-! ### Rates -/

structure Rates (α : Type) where
  precision : α
  coverage : α
  f1 : α
  falsePositiveRate : α
  accuracy : α

/-- The harmonic mean of two numbers; zero where their sum is not positive. -/
def harmonicMean {α : Type} [Add α] [Mul α] [Div α] [LT α] [DecidableLT α] (fromInt : Int → α) (p r : α) : α :=
  if fromInt 0 < p + r then fromInt 2 * p * r / (p + r) else fromInt 0

/-- The rates of counts over so many samples, for given ways to add, to take a share and to take the mean of two. -/
def Rates.ofCounts {m : Type → Type} [Monad m] {ν α : Type} (plus : ν → ν → m ν) (share : ν → ν → m α)
    (mean : α → α → α) (c : Counts ν) (samples : ν) : m (Rates α) := do
  let precision ← share c.truePositives (← plus c.truePositives c.falsePositives)
  let coverage ← share c.truePositives (← plus c.truePositives c.falseNegatives)
  let falsePositiveRate ← share c.falsePositives (← plus c.falsePositives c.trueNegatives)
  let accuracy ← share (← plus c.truePositives c.trueNegatives) samples
  return { precision, coverage, f1 := mean precision coverage, falsePositiveRate, accuracy }

/-- A part of a whole in doubles, from numbers of either kind; zero where the whole is not positive. -/
def numberShare (part whole : Number) : Except Fault Float :=
  if whole.compare? (.whole 0) == some .gt then part.dividedBy whole else .ok 0.0

def Rates.ofNumbers : Counts Number → Number → Except Fault (Rates Float) :=
  ofCounts Number.plus numberShare (harmonicMean Decimal.ofInt)

/-! ### Results -/

/-- The tally over all samples and the tallies by kind, in order of first occurrence. -/
structure Result where
  samples : Int := 0
  tally : Tally := .empty
  elapsed : Number := .real 0.0
  byKind : List (Option String × Tally) := []

def addByKind (kind : Option String) (o : Outcome) :
    List (Option String × Tally) → List (Option String × Tally)
  | [] => [(kind, Tally.empty.add o)]
  | (k, t) :: rest => if k = kind then (k, Tally.add t o) :: rest else (k, t) :: addByKind kind o rest

def Result.ofOutcomes (outcomes : List (Option String × Outcome)) : Result :=
  { samples := outcomes.length, tally := .ofOutcomes (outcomes.map (·.2))
    byKind := outcomes.foldl (fun tallies (kind, o) => addByKind kind o tallies) [] }

structure Figures where
  samples : Value := .int 0
  counts : Counts Value
  elapsed : Value := .float 0.0
  byKind : Value := .obj []

def Figures.toRecord (f : Figures) : Except Fault Record := do
  let rates ← Rates.ofNumbers (← f.counts.mapM Value.toNumber) (← f.samples.toNumber)
  let elapsed ← f.elapsed.toNumber
  let shown := fun (x : Float) => Value.float (Decimal.roundTo 4 x)
  return [("total_samples", f.samples), ("true_positives", f.counts.truePositives),
    ("false_positives", f.counts.falsePositives), ("true_negatives", f.counts.trueNegatives),
    ("false_negatives", f.counts.falseNegatives), ("precision", shown rates.precision),
    ("recall", shown rates.coverage), ("f1_score", shown rates.f1),
    ("false_positive_rate", shown rates.falsePositiveRate), ("accuracy", shown rates.accuracy),
    ("elapsed_seconds", (elapsed.rounded 2).toValue), ("per_type_results", f.byKind)]

def Result.figures (r : Result) (unnamed : String) : Figures :=
  { samples := .int r.samples, counts := Id.run (r.tally.mapM fun n => pure (.int n))
    elapsed := r.elapsed.toValue
    byKind := .obj (r.byKind.map fun (kind, t) => (kind.getD unnamed, .obj (Tally.toRecord t))) }

def Result.toRecord (r : Result) (unnamed : String) : Except Fault Record := (r.figures unnamed).toRecord

/-! ## Samples

A benchmark is a table of code samples with known labels. A column that the table lacks takes a
default; a row that ends before a column leaves that field out.
-/

/-- A sample with its label. Fields of rows that are too short are left out. -/
structure Sample where
  code : Option String
  label : Int
  kind : Option String
  weakness : Option String
  language : Option String
  source : Option String
  deriving DecidableEq

/-- A field of a row: the default where there is no such column, nothing where the row is too short.
Of columns with one name the last counts. -/
def fieldOf (header row : List String) (name default : String) : Option String :=
  match header.zipIdx.reverse.find? (·.1 == name) with
  | some (_, i) => row[i]?
  | none => some default

def Sample.ofRow (header row : List String) : Except Fault Sample := do
  let field := fieldOf header row
  let label ← match field "label" "0" with
    | none => .error .wrongKind
    | some s => match Decimal.readInt? s with
      | some n => .ok n
      | none => .error .meaningless
  return { code := field "code" "", label, kind := field "type" "unknown", weakness := field "cwe" ""
           language := field "language" "python", source := field "source" "" }

def samplesOfText (text : String) : Except Fault (List Sample) :=
  match Csv.read text with
  | [] => .ok []
  | header :: rows => (rows.filter (!·.isEmpty)).mapM (Sample.ofRow header)

def load (files : FileTree) (path : String) : Except Fault (List Sample) := do
  samplesOfText (← files.rawText .refuse path)

/-! ## Detection -/

/-- How many findings there are on some code. Other languages than Python and Javascript are not analyzed. A script is
handed over in a file of its own, which is known here by its code. -/
def findingCount (tools : Tools) (code : String) (language : Option String) : Except Fault Nat :=
  match language with
  | some "python" =>
    let findings := do
      let files ← FileTree.empty.writeText "sample.py" code
      Python.analyzeFile files "sample.py"
    .ok (findings.toOption.getD []).length
  | some "javascript" | some "js" => (tools.nodeDocument code).size
  | _ => .ok 0

structure Checked where
  sample : Sample
  code : String
  findings : Nat

namespace Checked

def detected (c : Checked) : Bool := 0 < c.findings

def outcome (c : Checked) : Outcome := .of c.detected (c.sample.label == 1)

def toRecord (c : Checked) : Record :=
  [("code_preview", .str (Text.take 80 c.code)), ("label", .int c.sample.label),
   ("type", .optText c.sample.kind), ("detected", .bool c.detected), ("outcome", .str c.outcome.word),
   ("findings_count", .nat c.findings)]

end Checked

variable (count : String → Option String → Except Fault Nat)

/-- Checks a sample with a way to count findings. A sample without code is a fault. -/
def check (s : Sample) : Except Fault Checked := do
  match s.code with
  | some code => return { sample := s, code, findings := ← count code s.language }
  | none => .error .wrongKind

def resultOf (checked : List Checked) : Result :=
  .ofOutcomes (checked.map fun c => (c.sample.kind, c.outcome))

def runWith (samples : List Sample) : Except Fault (Result × List Checked) := do
  let checked ← samples.mapM (check count)
  return (resultOf checked, checked)

def report (result : Result) (checked : List Checked) : Except Fault String := do
  return Json.write .pretty (.obj [("summary", .obj (← result.toRecord "null")),
    ("detailed_results", .list (checked.map fun c => .obj c.toRecord))])

/-- Checks all samples of a file; one that cannot be checked ends the run. -/
def run (path : String) : Action (Result × List Checked) := do
  let samples ← Action.reading (load · path)
  Action.ofExcept (runWith (findingCount (← get).tools) samples)

end CodeAudit.Benchmark
