/-!
Floats as exact numbers. A finite float is a sign and a magnitude
`significand · 2 ^ exponent`; its bits below the sign are themselves a natural
number, and the magnitudes grow with it. Rounding an exact ratio to the nearest
float is therefore a computation on naturals.
-/
namespace Calculator.Number
attribute [local instance (high)] instPowNat

/-- A sign and the exact magnitude `significand · 2 ^ exponent`. -/
structure Binary where
  negative : Bool
  significand : Nat
  exponent : Int
deriving DecidableEq

/-- The value that stands for no number. -/
def nan : Float := Float.ofBits 0x7FF8000000000000

/-- The magnitude bits of infinity: one more than those of the greatest float. -/
def infinityBits : Nat := 0x7FF0000000000000

/-- The float with the given sign and magnitude bits. -/
def ofMagnitude (negative : Bool) (bits : Nat) : Float :=
  Float.ofBits (UInt64.ofNat (if negative then 2 ^ (63 : Nat) + bits else bits))

def infinity (negative : Bool) : Float := ofMagnitude negative infinityBits

/-- Whether the sign bit of a float is set. -/
def isNegative (x : Float) : Bool := 2 ^ (63 : Nat) ≤ x.toBits.toNat

/-- The bits of a float below its sign. -/
def magnitude (x : Float) : Nat := x.toBits.toNat % 2 ^ (63 : Nat)

/-- The exact magnitude that finite magnitude bits stand for. -/
def significandOf (bits : Nat) : Nat :=
  if bits / 2 ^ (52 : Nat) = 0 then bits else 2 ^ (52 : Nat) + bits % 2 ^ (52 : Nat)

/-- The power of two by which the significand of finite magnitude bits is
    scaled. Numbers below the least normal one share its scale. -/
def exponentOf (bits : Nat) : Int :=
  if bits / 2 ^ (52 : Nat) = 0 then -1074 else (bits / 2 ^ (52 : Nat) : Nat) - 1075

/-- Exact value of a float; none for the infinities and for no number. -/
def Binary.ofFloat? (x : Float) : Option Binary :=
  if magnitude x < infinityBits then
    some ⟨isNegative x, significandOf (magnitude x), exponentOf (magnitude x)⟩
  else none

/-- A quotient of naturals to the nearest natural, a half to the even one. -/
def roundDiv (n d : Nat) : Nat :=
  let q := n / d
  let r := n % d
  if 2 * r < d ∨ (2 * r = d ∧ q % 2 = 0) then q else q + 1

/-- The greatest `k` with `2 ^ k ≤ n / d`, for positive `n` and `d`. -/
def floorLog2 (n d : Nat) : Int :=
  let k : Int := (n.log2 : Int) - d.log2
  if n * 2 ^ (-k).toNat < d * 2 ^ k.toNat then k - 1 else k

/-- The magnitude bits of the float nearest to `n / d`, a half going to the even
    significand and too great a ratio to infinity. -/
def nearestMagnitude (n d : Nat) : Nat :=
  if n = 0 then 0
  else
    let q := max (-1074) (floorLog2 n d - 52)
    let r := roundDiv (n * 2 ^ (-q).toNat) (d * 2 ^ q.toNat)
    min ((q + 1074).toNat * 2 ^ (52 : Nat) + r) infinityBits

/-- The float nearest to `± n / d`. -/
def ofRatio (negative : Bool) (n d : Nat) : Float :=
  ofMagnitude negative (nearestMagnitude n d)

/-- The float nearest to an exact value. -/
def Binary.toFloat (b : Binary) : Float :=
  ofRatio b.negative (b.significand * 2 ^ b.exponent.toNat) (2 ^ (-b.exponent).toNat)

/-- The float nearest to an integer. -/
def ofInt (i : Int) : Float := ofRatio (i < 0) i.natAbs 1

/-- The exact integer that a float is, if it is one. -/
def integer? (x : Float) : Option Int :=
  (Binary.ofFloat? x).bind fun b =>
    let n := b.significand * 2 ^ b.exponent.toNat
    let d := 2 ^ (-b.exponent).toNat
    if n % d = 0 then some (if b.negative then -(n / d : Nat) else (n / d : Nat)) else none

/-- Exact remainder of a division toward zero, with the sign of the dividend.
    There is none for an infinite dividend or a divisor of zero. -/
def remainder (x y : Float) : Float :=
  match Binary.ofFloat? x, Binary.ofFloat? y with
  | some a, some b =>
    if b.significand = 0 then nan
    else
      let scale := min a.exponent b.exponent
      let n := a.significand * 2 ^ (a.exponent - scale).toNat
      let d := b.significand * 2 ^ (b.exponent - scale).toNat
      Binary.toFloat ⟨a.negative, n % d, scale⟩
  | some _, none => if y.isNaN then nan else x
  | none, _ => nan

end Calculator.Number
