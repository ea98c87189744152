import Calculator.Numeral.Reading
import Calculator.Text.Character

/-!
The text of one number while it is collected: an optional sign, then either raw
digits or one written value. Digits, constants and the results of functions all
take the same way through the text; only a group's value takes its sign as a
number.
-/
namespace Calculator.Numeral

/-- Collected text, and whether it already holds a decimal point of its own. -/
structure Draft where
  text : String
  hasPoint : Bool
deriving DecidableEq

namespace Draft

def empty : Draft := ⟨"", false⟩

def pushSign (d : Draft) (sign : Char) : Draft := { d with text := d.text.push sign }

/-- The draft of a number that begins with the given sign, if any. -/
def ofSign : Option Char → Draft
  | none => empty
  | some sign => empty.pushSign sign

def pushDigit (d : Draft) (digit : Char) : Draft := { d with text := d.text.push digit }

/-- The sign at the very start of the text. -/
def sign? (d : Draft) : Option Char := d.text.toList.head?.filter Character.isSign

/-- The draft with a decimal point at its end; a second one is refused. -/
def pushPoint (d : Draft) : Except EvaluationError Draft :=
  if d.hasPoint then .error (.secondPoint d.text) else .ok ⟨d.text.push '.', true⟩

/-- The draft with a written value at its end. A sign before a value that is
    written with one stays as it is, so the two do not make a numeral. -/
def pushValue (d : Draft) (value : Float) : Draft := { d with text := d.text ++ write value }

/-- The draft whose sign is applied to a value that takes its place. -/
def applySign (d : Draft) (value : Float) : Draft :=
  { d with text := write (if d.sign? = some '-' then -value else value) }

/-- The number of the collected text. -/
def read (d : Draft) : EvaluationResult := Numeral.read d.text

end Draft

end Calculator.Numeral
