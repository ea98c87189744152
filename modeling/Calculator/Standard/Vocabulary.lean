import Calculator.Standard.Functions
import Calculator.Vocabulary.Basic

/-!
The vocabulary of every new evaluator.
-/
namespace Calculator.Standard

/-- The constants of every new evaluator. -/
def constants : List (String × Float) :=
  [("NaN", Number.nan),
   ("PI", 3.141592653589793),
   ("TAU", 6.283185307179586),
   ("E", 2.718281828459045),
   ("Infinity", Number.infinity false)]

/-- The table that holds the given entries. -/
def tableOf {α : Type} (kind : Kind) (entries : List (String × α)) : Table α :=
  entries.foldl (fun t entry => t.define entry.1 entry.2) (.empty kind)

/-- The names of every new evaluator. -/
def vocabulary : Vocabulary where
  constants := tableOf .constant constants
  functions := tableOf .function functions
  operators := tableOf .operator operators

end Calculator.Standard
