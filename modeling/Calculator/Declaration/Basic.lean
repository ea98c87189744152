import Calculator.Declaration.Script

/-!
The three kinds of declared names: constants, functions and operators. The shape
of a function's body fixes its arity, so a call with any other number of
arguments is an error of the call and never runs the body.
-/
namespace Calculator

/-- The number of arguments that a function takes. -/
inductive Arity where
  | zero
  | one
  | two
  | variable
deriving DecidableEq

namespace Arity

def all : List Arity := [.zero, .one, .two, .variable]

/-- The exact number of arguments, if it is fixed. -/
def expected : Arity → Option Nat
  | .zero => some 0
  | .one => some 1
  | .two => some 2
  | .variable => none

/-- Exact spelling of an arity. -/
def name : Arity → String
  | .zero => "Zero"
  | .one => "One"
  | .two => "Two"
  | .variable => "Variable"

def ofName? (s : String) : Option Arity := all.find? fun a => a.name = s

theorem mem_all (a : Arity) : a ∈ all := by cases a <;> decide

theorem ofName?_name (a : Arity) : ofName? a.name = some a := by cases a <;> decide

end Arity

/-- A function, by the arguments that its body takes. -/
inductive Function where
  | nullary (body : Script)
  | unary (body : Float → Script)
  | binary (body : Float → Float → Script)
  /-- Takes any number of arguments, including none. -/
  | variadic (body : List Float → Script)

namespace Function

/-- The number of arguments that a function takes. -/
def arity : Function → Arity
  | .nullary _ => .zero
  | .unary _ => .one
  | .binary _ => .two
  | .variadic _ => .variable

/-- What a function does with arguments; their number must be its arity. -/
def call (f : Function) (arguments : List Float) : Script :=
  match f, arguments with
  | .nullary body, [] => body
  | .unary body, [x] => body x
  | .binary body, [x, y] => body x y
  | .variadic body, arguments => body arguments
  | f, arguments =>
    .fail (.arityMismatch (f.arity.expected.getD arguments.length) arguments.length)

/-- Exact description of a function. -/
def describe (f : Function) : String := "Function \x7b arity: " ++ f.arity.name ++ " \x7d"

/-- A wrong number of arguments is answered without the function's body. -/
theorem call_of_expected_ne {f : Function} {arguments : List Float} {expected : Nat}
    (fixed : f.arity.expected = some expected) (wrong : arguments.length ≠ expected) :
    f.call arguments = .fail (.arityMismatch expected arguments.length) := by
  cases f with
  | nullary body =>
    obtain rfl : 0 = expected := by simpa [arity, Arity.expected] using fixed
    cases arguments with
    | nil => simp at wrong
    | cons x xs => rfl
  | unary body =>
    obtain rfl : 1 = expected := by simpa [arity, Arity.expected] using fixed
    match arguments, wrong with
    | [], _ => rfl
    | [_], wrong => simp at wrong
    | _ :: _ :: _, _ => rfl
  | binary body =>
    obtain rfl : 2 = expected := by simpa [arity, Arity.expected] using fixed
    match arguments, wrong with
    | [], _ => rfl
    | [_], _ => rfl
    | [_, _], wrong => simp at wrong
    | _ :: _ :: _ :: _, _ => rfl
  | variadic body => simp [arity, Arity.expected] at fixed

end Function

/-- A binary operator between operands. -/
structure Operator where
  tier : Tier
  operate : Float → Float → Script

def Operator.describe (op : Operator) : String :=
  "Operator \x7b priority: " ++ op.tier.word ++ " \x7d"

/-- What a name can be declared as. -/
inductive Kind where
  | constant
  | function
  | operator
deriving DecidableEq

namespace Kind

def all : List Kind := [.constant, .function, .operator]

/-- Exact word for a kind. -/
def name : Kind → String
  | .constant => "constant"
  | .function => "function"
  | .operator => "operator"

def ofName? (s : String) : Option Kind := all.find? fun k => k.name = s

theorem mem_all (k : Kind) : k ∈ all := by cases k <;> decide

theorem ofName?_name (k : Kind) : ofName? k.name = some k := by cases k <;> decide

end Kind

/-- A declaration of any kind. -/
inductive Declaration where
  | constant (value : Float)
  | function (f : Function)
  | operator (op : Operator)

def Declaration.kind : Declaration → Kind
  | .constant _ => .constant
  | .function _ => .function
  | .operator _ => .operator

end Calculator
