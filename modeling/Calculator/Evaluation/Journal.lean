/-!
The journal: one line for each thing that an embedding program may want to
follow. Every line takes the next number of a counter. Lines less severe than
the threshold leave no trace, not even in the numbering of the others.
-/
namespace Calculator

/-- Severity of a line, gravest first. -/
inductive Severity where
  | error
  | warning
  | information
  | debugging
  | tracing
deriving DecidableEq

namespace Severity

/-- Position of a severity among all of them, gravest first. -/
def rank : Severity → Nat
  | .error => 1
  | .warning => 2
  | .information => 3
  | .debugging => 4
  | .tracing => 5

/-- Exact mark of a severity in a line. -/
def letter : Severity → String
  | .error => "E"
  | .warning => "W"
  | .information => "I"
  | .debugging => "D"
  | .tracing => "T"

end Severity

/-- A line of the journal. -/
structure Line where
  number : Nat
  severity : Severity
  category : String
  message : String
deriving DecidableEq

/-- Exact text of a line. -/
def Line.text (l : Line) : String :=
  toString l.number ++ "|" ++ l.severity.letter ++ "|" ++ l.category ++ "|" ++ l.message

/-- The lines written so far, and how severe a line has to be to be written. -/
structure Journal where
  /-- Without a threshold nothing is written. -/
  threshold : Option Severity
  /-- The last number that was taken, or zero. -/
  count : Nat
  /-- The lines in the order of writing. -/
  lines : List Line

namespace Journal

/-- The journal without lines. -/
def ofThreshold (threshold : Option Severity) : Journal := ⟨threshold, 0, []⟩

/-- Whether lines of a severity are written. -/
def admits (j : Journal) (severity : Severity) : Bool :=
  match j.threshold with
  | none => false
  | some threshold => severity.rank ≤ threshold.rank

/-- The journal with one more line, if it is severe enough. The message is made
    and a number is taken only then. -/
def write (j : Journal) (severity : Severity) (category : String) (message : Unit → String) :
    Journal :=
  if j.admits severity then
    let number := j.count + 1
    { j with count := number, lines := j.lines ++ [⟨number, severity, category, message ()⟩] }
  else j

/-- The journal with a line for the start of an activity. -/
def writeEnter (j : Journal) (severity : Severity) (category activity : String)
    (details : Unit → String) : Journal :=
  j.write severity category fun _ => s!"ENTER {activity} " ++ details ()

/-- The journal with a line for the end of an activity. -/
def writeExit (j : Journal) (severity : Severity) (category activity : String)
    (details : Unit → String) : Journal :=
  j.write severity category fun _ => s!"EXIT {activity} " ++ details ()

theorem write_of_admits {j : Journal} {severity : Severity} (h : j.admits severity = true)
    (category : String) (message : Unit → String) :
    j.write severity category message =
      { j with
        count := j.count + 1
        lines := j.lines ++ [⟨j.count + 1, severity, category, message ()⟩] } := by
  simp [write, h]

theorem write_of_not_admits {j : Journal} {severity : Severity} (h : j.admits severity = false)
    (category : String) (message : Unit → String) : j.write severity category message = j := by
  simp [write, h]

end Journal

end Calculator
