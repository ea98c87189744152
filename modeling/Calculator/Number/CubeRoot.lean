import Calculator.Number.Binary

/-!
The float nearest to a cube root. The root of a natural is found bit by bit; with
enough bits of it, whether it is exact decides every rounding.
-/
namespace Calculator.Number
attribute [local instance (high)] instPowNat

/-- The greatest number at least `root` whose cube is at most `n`, of those that
    differ from `root` in the lowest `bits` bits. -/
def growCubeRoot (n : Nat) : (bits root : Nat) → Nat
  | 0, root => root
  | bits + 1, root =>
    let next := root + 2 ^ bits
    growCubeRoot n bits (if next * next * next ≤ n then next else root)

/-- The integer part of the cube root of a natural. -/
def floorCubeRoot (n : Nat) : Nat := growCubeRoot n (n.log2 / 3 + 1) 0

/-- The number of binary places to which a root is found. It is a multiple of
    three beyond the places of every float, so that a root has far more bits than
    a float keeps. -/
def rootPlaces : Nat := 1074 + 186

/-- The float nearest to the cube root of `n / 2 ^ places`. Between two
    neighbours on the grid of the root all values round alike. -/
def nearestCubeRoot (negative : Bool) (n places : Nat) : Float :=
  let scaled := n * 2 ^ (rootPlaces - places)
  let root := floorCubeRoot scaled
  let exact := root * root * root = scaled
  ofRatio negative (if exact then 2 * root else 2 * root + 1) (2 ^ (rootPlaces / 3 + 1))

/-- The float nearest to the cube root of a float, with its sign. -/
def cubeRoot (x : Float) : Float :=
  match Binary.ofFloat? x with
  | none => x
  | some b =>
    if b.significand = 0 then x
    else nearestCubeRoot b.negative (b.significand * 2 ^ b.exponent.toNat) (-b.exponent).toNat

end Calculator.Number
