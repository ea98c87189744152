import Calculator.Declaration.Basic
import Calculator.Number.Style
import Calculator.Text.Cursor

/-!
A computation that asks for the answers of callables, as a tree: it has its
result, or it waits for one call and goes on with the answer. What a computation
calls, with which arguments and in which order is read off the tree, whoever
answers.
-/
namespace Calculator

/-- A callable that is about to run, under the name it was found by. -/
inductive Call where
  | operator (name : String) (op : Operator) (x y : Float)
  | function (name : String) (f : Function) (arguments : List Float)

namespace Call

/-- What the callable does. -/
def script : Call → Script
  | .operator _ op x y => op.operate x y
  | .function _ f arguments => f.call arguments

/-- The evaluation's failure when the callable fails. -/
def failure (e : CallError) : Call → EvaluationError
  | .operator name op _ _ => .operatorFailed op.tier name e
  | .function name _ _ => .callFailed name e

def describe : Call → String
  | .operator name op x y =>
    Number.Style.plain.write x ++ s!" {name} " ++ Number.Style.plain.write y
      ++ " [" ++ op.tier.name ++ "]"
  | .function name _ arguments =>
    s!"call {name}([" ++ ", ".intercalate (arguments.map Number.Style.diagnostic.write) ++ "])"

end Call

/-- Where in an expression a call is made. -/
structure Site where
  /-- The location of the first character of the callable's name. -/
  place : Nat
  /-- The position reached when the call is made. -/
  cursor : Cursor
deriving DecidableEq

/-- A computation that may wait for callables. -/
inductive Interaction (α : Type) where
  | done (result : α)
  /-- Waits for the answer of a call. -/
  | call (request : Call) (site : Site) (resume : CallResult → Interaction α)

namespace Interaction

variable {α β γ : Type}

/-- Goes on with the result. -/
def bind : Interaction α → (α → Interaction β) → Interaction β
  | .done result, next => next result
  | .call request site resume, next =>
    .call request site fun answer => (resume answer).bind next

def map (f : α → β) (p : Interaction α) : Interaction β := p.bind fun result => .done (f result)

/-- The result when each call in turn is answered by `answer`. -/
def run {m : Type → Type} [Monad m] (answer : Call → Site → m CallResult) :
    Interaction α → m α
  | .done result => pure result
  | .call request site resume => do
    let reply ← answer request site
    (resume reply).run answer

@[simp] theorem done_bind (result : α) (next : α → Interaction β) :
    (done result).bind next = next result := rfl

@[simp] theorem call_bind (request : Call) (site : Site) (resume : CallResult → Interaction α)
    (next : α → Interaction β) :
    (call request site resume).bind next =
      .call request site fun answer => (resume answer).bind next := rfl

theorem bind_done (p : Interaction α) : p.bind .done = p := by
  induction p with
  | done result => rfl
  | call request site resume ih => simp [ih]

theorem bind_assoc (p : Interaction α) (f : α → Interaction β) (g : β → Interaction γ) :
    (p.bind f).bind g = p.bind fun result => (f result).bind g := by
  induction p with
  | done result => rfl
  | call request site resume ih => simp [ih]

/-- What goes on with a result is answered after what gave the result. -/
theorem run_bind {m : Type → Type} [Monad m] [LawfulMonad m] (answer : Call → Site → m CallResult)
    (p : Interaction α) (next : α → Interaction β) :
    (p.bind next).run answer = (do let result ← p.run answer; (next result).run answer) := by
  induction p with
  | done result => simp [run]
  | call request site resume ih => simp [run, ih]

end Interaction

end Calculator
