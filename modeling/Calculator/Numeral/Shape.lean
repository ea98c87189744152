import Calculator.Number.Decimal
import Calculator.Numeral.DecimalDigit

/-!
Exact shapes of numeral text: an optional sign and then a word, or digits with an
optional fraction and an optional ending. The ending is a bare point or a power
of ten, written `e`, `E` or `*10^`. A shape admits the digits of every script; a
number is read only from ASCII digits, and from a fraction only without a
further point.
-/
namespace Calculator.Numeral

/-- What may follow the digits of a numeral. -/
inductive Ending where
  | none
  | point
  | power (negative : Bool) (digits : List Char)
deriving DecidableEq

/-- The parts of a numeral behind its sign. -/
inductive Body where
  | infinity
  | nan
  /-- No digits in `fraction` means that there is none. -/
  | digits (whole fraction : List Char) (ending : Ending)
deriving DecidableEq

/-- A numeral taken apart. -/
structure Shape where
  negative : Bool
  body : Body
deriving DecidableEq

/-- A sign in front of `chars`, and what follows it. -/
def splitSign : List Char → Bool × List Char
  | '-' :: rest => (true, rest)
  | '+' :: rest => (false, rest)
  | chars => (false, chars)

/-- The leading digits of any script, and what follows them. -/
def splitDigits (chars : List Char) : List Char × List Char :=
  (chars.takeWhile isDecimalDigit, chars.dropWhile isDecimalDigit)

/-- A power of ten, after its mark. -/
def powerOf? (chars : List Char) : Option Ending :=
  let (negative, rest) := splitSign chars
  let (digits, left) := splitDigits rest
  if digits = [] ∨ left ≠ [] then .none else some (.power negative digits)

/-- What stands behind the digits of a numeral. -/
def endingOf? : List Char → Option Ending
  | [] => some .none
  | ['.'] => some .point
  | 'e' :: rest => powerOf? rest
  | 'E' :: rest => powerOf? rest
  | '*' :: '1' :: '0' :: '^' :: rest => powerOf? rest
  | _ => none

/-- The digits of a fraction, if a point and at least one digit come next, and
    what follows them. -/
def splitFraction : List Char → List Char × List Char
  | '.' :: rest =>
    let (digits, left) := splitDigits rest
    if digits = [] then ([], '.' :: rest) else (digits, left)
  | chars => ([], chars)

/-- A numeral behind its sign. -/
def bodyOf? (chars : List Char) : Option Body :=
  if chars = ['I', 'n', 'f', 'i', 'n', 'i', 't', 'y'] then some .infinity
  else if chars = ['N', 'a', 'N'] then some .nan
  else
    let (whole, rest) := splitDigits chars
    let (fraction, rest) := splitFraction rest
    if whole = [] then none else (endingOf? rest).map (.digits whole fraction)

/-- The shape of a text, if it is that of a numeral. -/
def shapeOf? (chars : List Char) : Option Shape :=
  let (negative, rest) := splitSign chars
  (bodyOf? rest).map (Shape.mk negative)

/-- The natural that ASCII digits spell. -/
def natural (digits : List Char) : Nat := Nat.ofDigitChars 10 digits 0

namespace Ending

/-- The power of ten that an ending spells. -/
def exponent : Ending → Int
  | .none => 0
  | .point => 0
  | .power negative digits => if negative then -(natural digits : Int) else natural digits

/-- Whether an ending is one of a number after the given fraction. -/
def isAccepted (fraction : List Char) : Ending → Bool
  | .none => true
  | .point => fraction.isEmpty
  | .power _ digits => digits.all Char.isDigit

end Ending

/-- The number that a shape spells; none for the digits of other scripts and for
    a point after a fraction. -/
def Shape.value? (s : Shape) : Option Float :=
  match s.body with
  | .infinity => some (Number.infinity s.negative)
  | .nan => some Number.nan
  | .digits whole fraction ending =>
    if whole.all Char.isDigit && fraction.all Char.isDigit && ending.isAccepted fraction then
      some (Number.Decimal.toFloat
        ⟨s.negative, natural (whole ++ fraction), ending.exponent - fraction.length⟩)
    else none

end Calculator.Numeral
