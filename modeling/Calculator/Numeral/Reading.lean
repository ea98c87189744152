import Calculator.Error
import Calculator.Number.Style
import Calculator.Numeral.Shape

/-!
Reading and writing numerals. What is written has a shape that is read.
-/
namespace Calculator.Numeral

/-- Exact number of a complete numeral. -/
def read (text : String) : EvaluationResult :=
  match shapeOf? text.toList with
  | none => .error (.malformedNumeral text)
  | some shape =>
    match shape.value? with
    | none => .error (.refusedNumeral text)
    | some value => .ok value

def write (value : Float) : String := Number.Style.numeral.write value

end Calculator.Numeral
