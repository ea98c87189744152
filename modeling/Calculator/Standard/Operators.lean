import Calculator.Declaration.Basic
import Calculator.Number.Style
import Calculator.Number.Word

/-!
The operators that every new evaluator knows. Sums, products, quotients and
remainders are those of floats. The operators on words take integers of any size
and refuse everything else.
-/
namespace Calculator.Standard

/-- A power. An exponent that is no number gives none, and neither does a base
    of one or minus one with an infinite exponent. -/
def power (x y : Float) : Float :=
  if y.isNaN || (x.abs == 1 && y.isInf) then Number.nan else x.pow y

/-- Exact refusal of operands that are not integers. -/
def integralMessage (operator : String) (x y : Float) : String :=
  s!"Operator '{operator}' needs integral operands, got "
    ++ Number.Style.plain.write x ++ " and " ++ Number.Style.plain.write y

/-- An operation on the words of two integral operands. -/
def onWords (operator : String) (operation : Number.Word → Number.Word → Int) (x y : Float) :
    CallResult :=
  if Number.isIntegral x && Number.isIntegral y then
    .ok (Number.ofInt (operation (.ofFloat x) (.ofFloat y)))
  else .error (.type (integralMessage operator x y))

/-- The operator that answers a value of floats. -/
def valueOperator (tier : Tier) (operation : Float → Float → Float) : Operator :=
  ⟨tier, fun x y => .value (operation x y)⟩

/-- The operator that answers an integer of words. -/
def wordOperator (name : String) (operation : Number.Word → Number.Word → Int) : Operator :=
  ⟨.factor, fun x y => .finish (onWords name operation x y)⟩

/-- The operators of every new evaluator. -/
def operators : List (String × Operator) :=
  [("+", valueOperator .polynomial (· + ·)),
   ("-", valueOperator .polynomial (· - ·)),
   ("*", valueOperator .monomial (· * ·)),
   ("/", valueOperator .monomial (· / ·)),
   ("%", valueOperator .monomial Number.remainder),
   ("**", valueOperator .factor power),
   ("&", wordOperator "&" Number.Word.and),
   ("|", wordOperator "|" Number.Word.or),
   ("^", wordOperator "^" Number.Word.xor),
   ("<<", wordOperator "<<" Number.Word.shiftLeft),
   (">>", wordOperator ">>" Number.Word.shiftRight),
   (">>>", wordOperator ">>>" Number.Word.shiftRightUnsigned)]

end Calculator.Standard
