import Calculator.Tier

/-!
Failures of an evaluation and of the callables it runs. A failure is kept as its
cause; the kind, the text and the chain of sources are read off the cause, so
that two failures are equal exactly when everything about them is.
-/
namespace Calculator

/-- The stage of an evaluation that failed. -/
inductive EvaluationError.Kind where
  | outOfRange
  | malformed
  | numeral
  | call
  | operator
  | reentrant
  | notANumber
deriving DecidableEq

mutual
/-- Why an evaluation failed. -/
inductive EvaluationError where
  /-- A character was asked for past the end of the expression. -/
  | endOfInput (location : Nat)
  | emptyExpression
  /-- The expression was complete before its text was. -/
  | trailing (rest : String)
  | unclosedGroup
  | unclosedGroupAt (found : Char)
  | unclosedArguments
  | missingSeparator (found : Char)
  | missingParentheses
  /-- The text has the shape of no numeral. -/
  | malformedNumeral (text : String)
  /-- The text has the shape of a numeral, but not the digits of one. -/
  | refusedNumeral (text : String)
  | secondPoint (text : String)
  | callFailed (function : String) (cause : CallError)
  | operatorFailed (tier : Tier) (operator : String) (cause : CallError)
  | reentrant
  | notANumber
  /-- A failure that the settings present as a result that is not a number. -/
  | masked (cause : EvaluationError)
  /-- A failure reported by an embedding program. -/
  | reported (kind : EvaluationError.Kind) (message : String)
  /-- A reported failure that another one caused. -/
  | reportedFrom (kind : EvaluationError.Kind) (message : String) (cause : EvaluationError)
  /-- A reported failure with a plain note as its cause. -/
  | reportedWith (kind : EvaluationError.Kind) (message : String) (note : String)

/-- Why a function or an operator gave no value. -/
inductive CallError where
  /-- An operand had the wrong shape. -/
  | type (message : String)
  | arityMismatch (expected found : Nat)
  /-- The callable evaluated another expression, and that failed. -/
  | evaluation (cause : EvaluationError)
  | failed (message : String)
end

deriving instance DecidableEq for EvaluationError, CallError

/-- What a callable answers. -/
abbrev CallResult := Except CallError Float

/-- What an evaluation answers. -/
abbrev EvaluationResult := Except EvaluationError Float

mutual
/-- Exact text of a failed evaluation. -/
def EvaluationError.message : EvaluationError → String
  | .endOfInput location => s!"Unexpected end of expression at position {location}"
  | .emptyExpression => "Cannot evaluate an empty expression"
  | .trailing rest => s!"Unexpected characters after expression: '{rest}'"
  | .unclosedGroup => "Unclosed parenthesis"
  | .unclosedGroupAt found => s!"Unclosed parenthesis: found '{found}'"
  | .unclosedArguments => "Unclosed argument list"
  | .missingSeparator found => s!"Missing separator between arguments: found '{found}'"
  | .missingParentheses => "Function call requires parentheses"
  | .malformedNumeral text => s!"Failed to parse numeral: '{text}'"
  | .refusedNumeral text => s!"Failed to parse numeral: '{text}'"
  | .secondPoint text => s!"Second decimal point in numeral: '{text}.'"
  | .callFailed function _ => s!"Function '{function}' failed"
  | .operatorFailed tier operator _ => tier.failure operator
  | .reentrant =>
    "Evaluator is already evaluating an expression; it may have called evaluate() on itself"
  | .notANumber => "Expression produced NaN"
  | .masked _ => "Expression produced NaN"
  | .reported _ message => message
  | .reportedFrom _ message _ => message
  | .reportedWith _ message _ => message

/-- Exact text of a failed call. -/
def CallError.message : CallError → String
  | .type message => s!"Type error: {message}"
  | .arityMismatch expected found => s!"Expected {expected} argument(s), got {found}"
  | .evaluation cause => "Nested evaluation failed: " ++ cause.message
  | .failed message => message
end

/-- The stage that a failure belongs to. -/
def EvaluationError.kind : EvaluationError → EvaluationError.Kind
  | .endOfInput _ => .outOfRange
  | .emptyExpression => .malformed
  | .trailing _ => .malformed
  | .unclosedGroup => .malformed
  | .unclosedGroupAt _ => .malformed
  | .unclosedArguments => .malformed
  | .missingSeparator _ => .malformed
  | .missingParentheses => .malformed
  | .malformedNumeral _ => .numeral
  | .refusedNumeral _ => .numeral
  | .secondPoint _ => .numeral
  | .callFailed _ _ => .call
  | .operatorFailed _ _ _ => .operator
  | .reentrant => .reentrant
  | .notANumber => .notANumber
  | .masked _ => .notANumber
  | .reported kind _ => kind
  | .reportedFrom kind _ _ => kind
  | .reportedWith kind _ _ => kind

/-- The failure of a result that is not a number, with the failure it stands
    for, if any. -/
def EvaluationError.ofMasked : Option EvaluationError → EvaluationError
  | none => .notANumber
  | some cause => .masked cause

/-- What can stand behind a failure. -/
inductive Cause where
  | evaluation (error : EvaluationError)
  | call (error : CallError)
  /-- The reader of decimal text refused its input. -/
  | literal
  | note (text : String)
deriving DecidableEq

/-- Exact text of a cause. -/
def Cause.message : Cause → String
  | .evaluation error => error.message
  | .call error => error.message
  | .literal => "invalid float literal"
  | .note text => text

/-- The failure directly behind an evaluation's failure. -/
def EvaluationError.source? : EvaluationError → Option Cause
  | .refusedNumeral _ => some .literal
  | .callFailed _ cause => some (.call cause)
  | .operatorFailed _ _ cause => some (.call cause)
  | .masked cause => some (.evaluation cause)
  | .reportedFrom _ _ cause => some (.evaluation cause)
  | .reportedWith _ _ note => some (.note note)
  | _ => none

/-- The failure directly behind a call's failure: a nested evaluation's. -/
def CallError.source? : CallError → Option Cause
  | .evaluation cause => some (.evaluation cause)
  | _ => none

mutual
/-- Every cause behind an evaluation's failure, from the outside in. -/
def EvaluationError.causes : EvaluationError → List Cause
  | .refusedNumeral _ => [.literal]
  | .callFailed _ cause => .call cause :: cause.causes
  | .operatorFailed _ _ cause => .call cause :: cause.causes
  | .masked cause => .evaluation cause :: cause.causes
  | .reportedFrom _ _ cause => .evaluation cause :: cause.causes
  | .reportedWith _ _ note => [.note note]
  | _ => []

/-- Every cause behind a call's failure, from the outside in. -/
def CallError.causes : CallError → List Cause
  | .evaluation cause => .evaluation cause :: cause.causes
  | _ => []
end

/-- The failure directly behind a cause. -/
def Cause.source? : Cause → Option Cause
  | .evaluation error => error.source?
  | .call error => error.source?
  | .literal => none
  | .note _ => none

/-- Every cause behind a cause, from the outside in. -/
def Cause.causes : Cause → List Cause
  | .evaluation error => error.causes
  | .call error => error.causes
  | .literal => []
  | .note _ => []

/-- The chain of an evaluation's failure is its source and what is behind it. -/
theorem EvaluationError.causes_eq (e : EvaluationError) :
    e.causes = match e.source? with
      | none => []
      | some cause => cause :: cause.causes := by
  cases e <;> simp [EvaluationError.causes, EvaluationError.source?, Cause.causes]

/-- The chain of a call's failure is its source and what is behind it. -/
theorem CallError.causes_eq (e : CallError) :
    e.causes = match e.source? with
      | none => []
      | some cause => cause :: cause.causes := by
  cases e <;> simp [CallError.causes, CallError.source?, Cause.causes]

/-- A call's failure has a source exactly when a nested evaluation failed. -/
theorem CallError.source?_eq_some_iff (e : CallError) (cause : Cause) :
    e.source? = some cause ↔ ∃ inner, e = .evaluation inner ∧ cause = .evaluation inner := by
  cases e <;> simp [CallError.source?, eq_comm]

end Calculator
