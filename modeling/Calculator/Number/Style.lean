import Calculator.Number.Shortest

/-!
How a float is written. Every style uses the shortest digits that read back; a
style settles only the words for what is not finite, the mark of whole numbers
and where an exponent takes the place of filling zeros.
-/
namespace Calculator.Number

/-- The decisions of one way of writing floats. -/
structure Style where
  /-- The word for infinity, after its sign. -/
  infinity : String
  /-- Whether a whole number written without exponent ends in `.0`. -/
  wholePoint : Bool
  /-- The least and greatest position of the leading digit that is written
      without an exponent; without bounds there never is one. -/
  positional : Option (Int × Int)
deriving DecidableEq

namespace Style

/-- Numerals have no exponent and read back as what was written. -/
def numeral : Style := ⟨"Infinity", false, none⟩

/-- Reports write a number as a numeral, but shorten infinity. -/
def plain : Style := ⟨"inf", false, none⟩

/-- Diagnostics keep whole numbers apart from integers and write an exponent
    below `0.0001` and from `10 ^ 16` on. -/
def diagnostic : Style := ⟨"inf", true, some (-3, 16)⟩

/-- Digits with the point at its place and zeros up to it. -/
def positionalText (digits : List Char) (exponent : Int) : List Char :=
  if 0 ≤ exponent then digits ++ List.replicate exponent.toNat '0'
  else
    let places := (-exponent).toNat
    if digits.length ≤ places then
      '0' :: '.' :: (List.replicate (places - digits.length) '0' ++ digits)
    else digits.take (digits.length - places) ++ '.' :: digits.drop (digits.length - places)

/-- Digits with the point behind the first and the exponent at the end. -/
def scientificText (digits : List Char) (exponent : Int) : List Char :=
  let power := exponent + digits.length - 1
  let mark := 'e' :: (if power < 0 then ['-'] else []) ++ Nat.toDigits 10 power.natAbs
  match digits with
  | [] => mark
  | [first] => first :: mark
  | first :: rest => first :: '.' :: rest ++ mark

/-- A decimal number without its sign. -/
def decimalText (style : Style) (d : Decimal) : List Char :=
  let digits := Nat.toDigits 10 d.coefficient
  let within := match style.positional with
    | none => true
    | some (least, greatest) =>
      d.coefficient = 0 || (least ≤ d.position && d.position ≤ greatest)
  if within then
    let text := positionalText digits d.exponent
    if style.wholePoint && 0 ≤ d.exponent then text ++ ['.', '0'] else text
  else scientificText digits d.exponent

/-- The text of a float. -/
def text (style : Style) (x : Float) : List Char :=
  if x.isNaN then ['N', 'a', 'N']
  else
    let sign := if isNegative x then ['-'] else []
    match Binary.ofFloat? x with
    | none => sign ++ style.infinity.toList
    | some b => sign ++ style.decimalText (Shortest.ofBinary b)

/-- The text of a float. -/
def write (style : Style) (x : Float) : String := String.ofList (style.text x)

end Style

end Calculator.Number
