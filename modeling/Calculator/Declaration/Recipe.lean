import Calculator.Declaration.Basic
import Calculator.Number.Binary

/-!
Ready-made callables. A recipe is plain data; it becomes a function of any arity
or an operator of any tier. A missing argument counts as zero.
-/
namespace Calculator

/-- What a ready-made callable does with its arguments. -/
inductive Recipe where
  | constant (value : Float)
  | argument (index : Nat)
  | sum
  | product
  | count
  | mean
  | scale (factor : Float)
  | difference
  | distance
  | equality
  | concatenation
  /-- Counts its calls. The count is shared by every copy of the declaration. -/
  | counter
  | fail (message : String)
  | failType (message : String)
  | failArity (expected found : Nat)
  /-- Adds its arguments to the value of an expression on a named evaluator. -/
  | nested (evaluator expression : String)

namespace Recipe

/-- An argument, or zero. -/
def argumentOf (arguments : List Float) (index : Nat) : Float := arguments.getD index 0

/-- The sum of the arguments, from the left. -/
def sumOf (arguments : List Float) : Float := arguments.foldl (· + ·) 0

def countOf (arguments : List Float) : Float := Number.ofInt arguments.length

/-- What the callable does. A counter keeps its count in `cell`. -/
def script (recipe : Recipe) (cell : Nat) (arguments : List Float) : Script :=
  let first := argumentOf arguments 0
  let second := argumentOf arguments 1
  match recipe with
  | .constant value => .value value
  | .argument index => .value (argumentOf arguments index)
  | .sum => .value (sumOf arguments)
  | .product => .value (arguments.foldl (· * ·) 1)
  | .count => .value (countOf arguments)
  | .mean =>
    if arguments.isEmpty then .fail (.failed "mean of nothing")
    else .value (sumOf arguments / countOf arguments)
  | .scale factor => .value (first * factor)
  | .difference => .value (first - second)
  | .distance => .value (first - second).abs
  | .equality => .value (if first == second then 1 else 0)
  | .concatenation => .value (first * 10 + second)
  | .counter => .load cell fun count => .store cell (count + 1) (.value (count + 1))
  | .fail message => .fail (.failed message)
  | .failType message => .fail (.type message)
  | .failArity expected found => .fail (.arityMismatch expected found)
  | .nested evaluator expression =>
    .evaluate evaluator expression fun answer =>
      match answer with
      | none => .fail (.failed s!"no evaluator '{evaluator}'")
      | some (.error e) => .fail (.evaluation e)
      | some (.ok value) => .value (value + sumOf arguments)

/-- The function of a recipe. -/
def function (recipe : Recipe) (cell : Nat) : Arity → Function
  | .zero => .nullary (recipe.script cell [])
  | .one => .unary fun x => recipe.script cell [x]
  | .two => .binary fun x y => recipe.script cell [x, y]
  | .variable => .variadic (recipe.script cell)

/-- The operator of a recipe. -/
def operator (recipe : Recipe) (cell : Nat) (tier : Tier) : Operator :=
  ⟨tier, fun x y => recipe.script cell [x, y]⟩

theorem function_arity (recipe : Recipe) (cell : Nat) (arity : Arity) :
    (recipe.function cell arity).arity = arity := by
  cases arity <;> rfl

end Recipe

/-- A declaration as plain data. -/
inductive Blueprint where
  | constant (value : Float)
  | function (arity : Arity) (recipe : Recipe)
  | operator (tier : Tier) (recipe : Recipe)

namespace Blueprint

def kind : Blueprint → Kind
  | .constant _ => .constant
  | .function _ _ => .function
  | .operator _ _ => .operator

/-- The declaration whose counter, if any, keeps its count in `cell`. -/
def declaration (cell : Nat) : Blueprint → Declaration
  | .constant value => .constant value
  | .function arity recipe => .function (recipe.function cell arity)
  | .operator tier recipe => .operator (recipe.operator cell tier)

theorem declaration_kind (cell : Nat) (b : Blueprint) : (b.declaration cell).kind = b.kind := by
  cases b <;> rfl

end Blueprint

end Calculator
