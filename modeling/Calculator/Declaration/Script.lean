import Calculator.Error

/-!
What a callable does when it runs, as a tree of the steps that can be seen from
outside: a number drawn at random, a cell that copies of the callable share, and
a further evaluation on a named evaluator. A callable that does none of these is
a finished script.
-/
namespace Calculator

/-- The steps of a running callable. -/
inductive Script where
  | finish (result : CallResult)
  /-- Draws a number from zero up to, but not including, one. -/
  | draw (resume : Float → Script)
  | load (cell : Nat) (resume : Float → Script)
  | store (cell : Nat) (value : Float) (resume : Script)
  /-- Evaluates an expression; there is no answer where no evaluator has the name. -/
  | evaluate (evaluator : String) (expression : String)
      (resume : Option EvaluationResult → Script)

namespace Script

/-- The script that answers a value. -/
def value (x : Float) : Script := .finish (.ok x)

/-- The script that fails. -/
def fail (e : CallError) : Script := .finish (.error e)

end Script

end Calculator
