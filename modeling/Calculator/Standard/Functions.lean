import Calculator.Number.CubeRoot
import Calculator.Standard.Operators

/-!
The functions that every new evaluator knows.
-/
namespace Calculator.Standard

/-- The nearest integer; a half goes up. -/
def roundHalfUp (x : Float) : Float :=
  let floor := x.floor
  if x - floor ≥ 0.5 then floor + 1 else floor

/-- Degrees of an angle in radians: one multiplication. -/
def toDegrees (x : Float) : Float := x * 57.29577951308232

/-- Radians of an angle in degrees: one multiplication. -/
def toRadians (x : Float) : Float := x * 0.017453292519943295

/-- The lesser of two numbers; none if either is none. -/
def minimum (x y : Float) : Float :=
  if x.isNaN || y.isNaN then Number.nan else if y < x then y else x

/-- The greater of two numbers; none if either is none. -/
def maximum (x y : Float) : Float :=
  if x.isNaN || y.isNaN then Number.nan else if x < y then y else x

/-- The natural logarithm of the first argument; the second is not looked at. -/
def naturalLogarithm (x _base : Float) : Float := x.log

/-- The greatest integer whose factorial is computed. -/
def factorialLimit : Nat := 127

/-- The product of the integers from two to `n`, rounded after each factor. -/
def factorialOf : Nat → Float
  | 0 => 1
  | 1 => 1
  | n + 1 => factorialOf n * Number.ofInt (n + 1 : Nat)

/-- The factorial of an integer in range. -/
def factorial (x : Float) : CallResult :=
  match Number.integer? x with
  | none => .error (.type ("factorial needs an integer, got " ++ Number.Style.plain.write x))
  | some i =>
    if i < 0 then
      .error (.type ("factorial of a negative number: " ++ Number.Style.plain.write x))
    else if factorialLimit < i then
      .error (.failed (s!"factorial is limited to {factorialLimit}!, got "
        ++ Number.Style.plain.write x))
    else .ok (factorialOf i.toNat)

/-- The function of one float that always answers. -/
def valueFunction (operation : Float → Float) : Function := .unary fun x => .value (operation x)

/-- The function of two floats that always answers. -/
def valueFunctionOfTwo (operation : Float → Float → Float) : Function :=
  .binary fun x y => .value (operation x y)

/-- The functions of every new evaluator. -/
def functions : List (String × Function) :=
  [("random", .nullary (.draw .value)),
   ("sqrt", valueFunction Float.sqrt),
   ("cbrt", valueFunction Number.cubeRoot),
   ("abs", valueFunction Float.abs),
   ("floor", valueFunction Float.floor),
   ("ceil", valueFunction Float.ceil),
   ("round", valueFunction roundHalfUp),
   ("sin", valueFunction Float.sin),
   ("cos", valueFunction Float.cos),
   ("tan", valueFunction Float.tan),
   ("asin", valueFunction Float.asin),
   ("acos", valueFunction Float.acos),
   ("atan", valueFunction Float.atan),
   ("exp", valueFunction Float.exp),
   ("to_degrees", valueFunction toDegrees),
   ("to_radians", valueFunction toRadians),
   ("log10", valueFunction Float.log10),
   ("factorial", .unary fun x => .finish (factorial x)),
   ("log", valueFunctionOfTwo naturalLogarithm),
   ("atan2", valueFunctionOfTwo Float.atan2),
   ("min", valueFunctionOfTwo minimum),
   ("max", valueFunctionOfTwo maximum),
   ("pow", valueFunctionOfTwo power)]

end Calculator.Standard
