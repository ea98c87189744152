/-!
The three tiers of binary operators. A tier is how strongly its operators bind:
monomials are joined into polynomials, and factors into monomials.
-/
namespace Calculator

/-- Binding strength of an operator, weakest first. -/
inductive Tier where
  | polynomial
  | monomial
  | factor
deriving DecidableEq

namespace Tier

/-- Every tier, weakest first. -/
def all : List Tier := [.polynomial, .monomial, .factor]

/-- Position of a tier among all of them. -/
def strength : Tier → Nat
  | .polynomial => 0
  | .monomial => 1
  | .factor => 2

/-- The tiers that bind more strongly, weakest first. -/
def above (t : Tier) : List Tier := all.filter fun s => t.strength < s.strength

/-- Exact spelling of a tier in settings and in the journal. -/
def name : Tier → String
  | .polynomial => "POLYNOMIAL"
  | .monomial => "MONOMIAL"
  | .factor => "FACTOR"

/-- Exact word for a tier in the description of an operator. -/
def word : Tier → String
  | .polynomial => "Polynomial"
  | .monomial => "Monomial"
  | .factor => "Factor"

/-- Exact report of a failed operator of this tier. -/
def failure (t : Tier) (operator : String) : String :=
  match t with
  | .polynomial => s!"Operator '{operator}' between terms failed"
  | .monomial => s!"Operator '{operator}' between factors failed"
  | .factor => s!"Operator '{operator}' on a factor failed"

def ofName? (s : String) : Option Tier := all.find? fun t => t.name = s

theorem mem_all (t : Tier) : t ∈ all := by cases t <;> decide

/-- Tiers are told apart by their strength. -/
theorem eq_of_strength {s t : Tier} (same : s.strength = t.strength) : s = t := by
  cases s <;> cases t <;> first | rfl | cases same

theorem mem_above_iff (t s : Tier) : s ∈ t.above ↔ t.strength < s.strength := by
  simp [above, mem_all]

theorem ofName?_name (t : Tier) : ofName? t.name = some t := by cases t <;> decide

end Tier

end Calculator
