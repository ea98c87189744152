import Calculator.Evaluation.Evaluator
import Calculator.Evaluation.Grammar
import Calculator.Evaluation.Journal

/-!
Running evaluations that may start further ones. The evaluators are known by
name. One that is already evaluating rejects a second evaluation, so evaluations
nest no deeper than there are evaluators; the depth bounds the recursion here,
and running out of it has an outcome of its own.
-/
namespace Calculator

/-- The random numbers that are still to come, in order: each from zero up to one, and
    otherwise any. -/
structure Draws where
  number : Nat → Float
  bounded : ∀ i, 0 ≤ number i ∧ number i < 1

namespace Draws

def first (draws : Draws) : Float := draws.number 0

/-- The numbers behind the first one. -/
def rest (draws : Draws) : Draws := ⟨fun i => draws.number (i + 1), fun i => draws.bounded (i + 1)⟩

/-- All numbers are zero. -/
def zero : Draws := ⟨fun _ => 0, fun _ => by decide⟩

end Draws

/-- Everything that a running evaluation can change. -/
structure Machine where
  /-- The contents of the cells that callables keep. -/
  cells : List Float
  draws : Draws
  /-- The evaluators with an evaluation in progress, the innermost first. -/
  active : List String
  /-- The position of each evaluator in its expression. -/
  cursors : String → Cursor
  journal : Journal

namespace Machine

/-- The machine before anything ran. -/
def start (threshold : Option Severity) (draws : Draws := .zero) : Machine :=
  ⟨[], draws, [], fun _ => .empty, .ofThreshold threshold⟩

/-- Whether an evaluator has an evaluation in progress. -/
def isBusy (m : Machine) (evaluator : String) : Bool := m.active.contains evaluator

/-- The machine with an evaluator at a position. -/
def place (m : Machine) (evaluator : String) (position : Cursor) : Machine :=
  { m with cursors := fun name => if name = evaluator then position else m.cursors name }

/-- The machine with one more evaluation in progress, at the start of its expression. -/
def enter (m : Machine) (evaluator expression : String) : Machine :=
  { m.place evaluator (.ofString expression) with active := evaluator :: m.active }

/-- The machine whose innermost evaluation has come to a position. -/
def moveTo (m : Machine) (position : Cursor) : Machine :=
  match m.active with
  | [] => m
  | evaluator :: _ => m.place evaluator position

/-- The machine without its innermost evaluation, whose evaluator is in no text. -/
def leave (m : Machine) : Machine :=
  match m.active with
  | [] => m
  | evaluator :: outer => { m.place evaluator .empty with active := outer }

/-- The machine with one more line in its journal, if it is severe enough. -/
def note (m : Machine) (severity : Severity) (category : String) (message : Unit → String) :
    Machine :=
  { m with journal := m.journal.write severity category message }

/-- The machine with a line for the start of an evaluation. -/
def noteEnter (m : Machine) (expression : String) : Machine :=
  { m with
    journal := m.journal.writeEnter .debugging "EVAL" "evaluate" fun _ => s!"'{expression}'" }

/-- The machine with a line for the end of an evaluation. -/
def noteExit (m : Machine) (outcome : Unit → String) : Machine :=
  { m with journal := m.journal.writeExit .debugging "EVAL" "evaluate" outcome }

def load (m : Machine) (cell : Nat) : Float := m.cells.getD cell 0

def store (m : Machine) (cell : Nat) (value : Float) : Machine :=
  { m with cells := m.cells.set cell value }

/-- A new cell that holds zero, and the machine with it. -/
def newCell (m : Machine) : Nat × Machine :=
  (m.cells.length, { m with cells := m.cells ++ [0] })

/-- The next random number, and the machine after drawing it. -/
def draw (m : Machine) : Float × Machine := (m.draws.first, { m with draws := m.draws.rest })

end Machine

/-- A computation on the machine. It has no outcome where evaluations nest
    deeper than was allowed for. -/
abbrev Run (α : Type) := StateT Machine Option α

/-- The evaluators that an evaluation can reach, under their names. -/
abbrev Evaluators := List (String × Evaluator)

def Evaluators.find? (evaluators : Evaluators) (name : String) : Option Evaluator :=
  List.lookup name evaluators

namespace Run

def change (f : Machine → Machine) : Run Unit := modify f

/-- Writes a line, if it is severe enough. -/
def note (severity : Severity) (category : String) (message : Unit → String) : Run Unit :=
  change (·.note severity category message)

/-- Runs a callable to its answer. -/
def script (evaluate : String → String → Run (Option EvaluationResult)) :
    Script → Run CallResult
  | .finish result => pure result
  | .draw resume => do
    let x ← modifyGet Machine.draw
    script evaluate (resume x)
  | .load cell resume => do
    let m ← get
    script evaluate (resume (m.load cell))
  | .store cell value resume => do
    change (·.store cell value)
    script evaluate resume
  | .evaluate evaluator expression resume => do
    let answer ← evaluate evaluator expression
    script evaluate (resume answer)

/-- Answers a call: the evaluation in progress has come to its position, the
    call is noted, and the callable runs. -/
def answer (evaluate : String → String → Run (Option EvaluationResult)) (request : Call)
    (site : Site) : Run CallResult := do
  change (·.moveTo site.cursor)
  note .tracing "GRAM" fun _ => request.describe
  script evaluate request.script

/-- Settles what an expression came to; a failure that becomes a value is noted. -/
def settle (settings : Settings) (raw : EvaluationResult) : Run EvaluationResult := do
  match raw with
  | .ok _ => pure ()
  | .error e =>
    if settings.isSilent then
      note .debugging "EVAL" fun _ => "failure masked as NaN: " ++ e.message
  pure (settings.settle raw)

/-- Exact report of what an expression came to. -/
def outcomeText : EvaluationResult → String
  | .ok value => "= " ++ Number.Style.plain.write value
  | .error e => "failed: " ++ e.message

/-- Rejects an evaluation on an evaluator that has one in progress. -/
def reject (settings : Settings) (expression : String) : Run EvaluationResult := do
  note .warning "EVAL" fun _ => s!"rejected nested evaluate of '{expression}'"
  settle settings (.error .reentrant)

/-- Evaluates an expression on an evaluator that has no evaluation in progress. -/
def accept (evaluate : String → String → Run (Option EvaluationResult)) (name : String)
    (evaluator : Evaluator) (expression : String) : Run EvaluationResult := do
  change (·.enter name expression)
  change (·.noteEnter expression)
  let reading ←
    (Grammar.expression evaluator.vocabulary (.ofString expression)).run (answer evaluate)
  change (·.leave)
  change (·.noteExit fun _ => outcomeText reading.result)
  settle evaluator.settings reading.result

/-- Evaluates an expression on a named evaluator, nesting at most `depth` deep.
    There is no answer where no evaluator has the name. -/
def evaluateWithin (evaluators : Evaluators) :
    (depth : Nat) → (name expression : String) → Run (Option EvaluationResult)
  | depth, name, expression => do
    match evaluators.find? name with
    | none => pure none
    | some evaluator =>
      let m ← get
      if m.isBusy name then some <$> reject evaluator.settings expression
      else
        match depth with
        | 0 => failure
        | depth + 1 =>
          some <$> accept (evaluateWithin evaluators depth) name evaluator expression

/-- Evaluates an expression on a named evaluator. There is a level of nesting
    for each evaluator, which is always enough. -/
def evaluate (evaluators : Evaluators) (name expression : String) :
    Run (Option EvaluationResult) :=
  evaluateWithin evaluators evaluators.length name expression

end Run

end Calculator
