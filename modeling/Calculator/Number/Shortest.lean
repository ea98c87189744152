import Calculator.Number.Decimal

/-!
The shortest decimal number that reads back as a given float. On the grid of
each number of digits only the two neighbours of the exact value need a try: of
two that read back the nearer is taken, and of two equally near ones the greater.
-/
namespace Calculator.Number.Shortest
attribute [local instance (high)] instPowNat

/-- The position of the leading digit of `n / d`: the least `k` for which the
    ratio is below `10 ^ k`, for positive `n` and `d`. -/
def position (n d : Nat) : Int :=
  if d ≤ n then Decimal.digitCount (n / d)
  else
    let inverse := (d + n - 1) / n
    if inverse ≤ 1 then 1 else 1 - (Decimal.digitCount (inverse - 1) : Int)

/-- Whether a decimal number has the given magnitude bits when it is read. -/
def readsBack (bits : Nat) (d : Decimal) : Bool := d.magnitude = bits

/-- The best decimal number of `count` digits for `n / d`, if one reads back as
    the magnitude bits. -/
def ofCount? (negative : Bool) (bits n d : Nat) (top : Int) (count : Nat) : Option Decimal :=
  let unit := top - count
  let scaled := n * 10 ^ (-unit).toNat
  let divisor := d * 10 ^ unit.toNat
  let floor := scaled / divisor
  let below : Decimal := ⟨negative, floor, unit⟩
  let above : Decimal :=
    if floor + 1 = 10 ^ count then ⟨negative, 1, top⟩ else ⟨negative, floor + 1, unit⟩
  let nearBelow := 2 * (scaled % divisor) < divisor
  match readsBack bits below, readsBack bits above with
  | true, true => some (if nearBelow then below else above)
  | true, false => some below
  | false, true => some above
  | false, false => none

/-- The exact value of `n / 2 ^ places` as a decimal number. -/
def exact (negative : Bool) (n places : Nat) : Decimal := ⟨negative, n * 5 ^ places, -places⟩

/-- The shortest decimal number that reads back as a finite value. -/
def ofBinary (b : Binary) : Decimal :=
  let n := b.significand * 2 ^ b.exponent.toNat
  let places := (-b.exponent).toNat
  if n = 0 then ⟨b.negative, 0, 0⟩
  else
    let d := 2 ^ places
    let bits := nearestMagnitude n d
    let top := position n d
    match (List.range 17).findSome? fun i => ofCount? b.negative bits n d top (i + 1) with
    | some found => found
    | none => exact b.negative n places

end Calculator.Number.Shortest
