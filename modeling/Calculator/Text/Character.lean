/-!
Exact classes of the characters that have a fixed meaning in an expression.
They are structural: no declaration can change them. Everything else that an
expression may say comes from the declared names.
-/
namespace Calculator.Character

/-- Exact characters skipped between the parts of an expression: the space and
    the line feed, and no other blank. -/
def isIgnored (c : Char) : Bool := c = ' ' || c = '\n'

/-- Exact characters that a run of raw digits may hold: ASCII `0` to `9`. -/
def isDigit (c : Char) : Bool := c.isDigit

/-- Exact characters that may stand before a number as its sign. -/
def isSign (c : Char) : Bool := c = '+' || c = '-'

/-- Exact characters that no declared name may hold. -/
def isReserved (c : Char) : Bool := c = '(' || c = ')' || c = ','

/-- The first reserved character of a name. -/
def firstReserved? (name : String) : Option Char := name.toList.find? isReserved

theorem isIgnored_iff (c : Char) : isIgnored c = true ↔ c = ' ' ∨ c = '\n' := by
  simp [isIgnored]

theorem isSign_iff (c : Char) : isSign c = true ↔ c = '+' ∨ c = '-' := by
  simp [isSign]

theorem isReserved_iff (c : Char) : isReserved c = true ↔ c = '(' ∨ c = ')' ∨ c = ',' := by
  simp [isReserved, or_assoc]

/-- A name has no first reserved character exactly when it holds none. -/
theorem firstReserved?_eq_none_iff (name : String) :
    firstReserved? name = none ↔ ∀ c ∈ name.toList, isReserved c = false := by
  simp [firstReserved?]

end Calculator.Character
