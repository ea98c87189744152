import Calculator.Error
import Calculator.Number.Binary

/-!
What an evaluator makes of a failure and of a result that is not a number.

| allowed | silent | not a number | failure                        |
|---------|--------|--------------|--------------------------------|
| no      | either | an error     | an error that keeps the cause  |
| yes     | no     | the value    | the failure itself             |
| yes     | yes    | the value    | the value that is not a number |
-/
namespace Calculator

/-- The choices of an evaluator. -/
structure Settings where
  allowNan : Bool := false
  neverThrows : Bool := false
deriving DecidableEq

namespace Settings

/-- Whether a failure becomes a value. -/
def isSilent (s : Settings) : Bool := s.allowNan && s.neverThrows

/-- What an evaluator answers for what its expression came to. -/
def settle (s : Settings) (raw : EvaluationResult) : EvaluationResult :=
  match raw with
  | .ok value => if value.isNaN && !s.allowNan then .error .notANumber else .ok value
  | .error e =>
    if s.isSilent then .ok Number.nan
    else if s.allowNan then .error e
    else .error (.masked e)

end Settings

end Calculator
