import Calculator.Evaluation.Interaction
import Calculator.Numeral.Draft
import Calculator.Vocabulary.Basic

/-!
Expressions as trees. A tree is written by its tokens in order with ignored
characters between them, and its value is found without any text: operands before
their operator, from the left, and arguments before their call. `Spells` says
which texts a tree over a vocabulary has; it settles what reading an expression
has to come to.
-/
namespace Calculator

/-- A call that is made at no place of any text. -/
def Site.nowhere : Site := ⟨0, .empty⟩

namespace Interaction

variable {ε α β : Type}

/-- The same calls and the same result, without the places. -/
def unplaced : Interaction α → Interaction α
  | .done result => .done result
  | .call request _ resume => .call request .nowhere fun answer => (resume answer).unplaced

/-- Goes on with a value; a failure ends both. -/
def onward (p : Interaction (Except ε α)) (next : α → Interaction (Except ε β)) :
    Interaction (Except ε β) :=
  p.bind fun result =>
    match result with
    | .error e => .done (.error e)
    | .ok x => next x

/-- Asks for the answer of a call and goes on with it; the call's failure is one
    of the evaluation. -/
def ask (request : Call) (next : Float → Interaction (Except EvaluationError α)) :
    Interaction (Except EvaluationError α) :=
  .call request .nowhere fun answer =>
    match answer with
    | .error e => .done (.error (request.failure e))
    | .ok x => next x

end Interaction

mutual

/-- An expression or a part of one. -/
inductive Tree where
  /-- An operand, and the operators of one tier with their right operands. -/
  | chain (tier : Tier) (first : Tree) (rest : Links)
  | group (inner : Tree)
  | call (sign : Option Char) (name : String) (f : Function) (arguments : Arguments)
  | constant (sign : Option Char) (name : String) (value : Float)
  | numeral (sign : Option Char) (digits : List Char)
  /-- A sign in front of everything up to the end of a polynomial. -/
  | signed (sign : Char) (inner : Tree)

/-- Operators and their right operands. -/
inductive Links where
  | nil
  | cons (name : String) (op : Operator) (right : Tree) (rest : Links)

/-- The arguments of a call. -/
inductive Arguments where
  | nil
  | cons (first : Tree) (rest : Arguments)

end

/-- Where a tree can stand. -/
inductive Level where
  | chain (tier : Tier)
  | factor
deriving DecidableEq

/-- Where the operands of a tier stand. -/
def Tier.operands : Tier → Level
  | .polynomial => .chain .monomial
  | .monomial => .chain .factor
  | .factor => .factor

/-- Digits with an optional point behind or between them. -/
def IsPlainNumeral (digits : List Char) : Prop :=
  ∃ whole fraction : List Char, whole ≠ [] ∧ whole.all Character.isDigit = true ∧
    fraction.all Character.isDigit = true ∧ (digits = whole ∨ digits = whole ++ '.' :: fraction)

/-- A sign or nothing. -/
def IsOptionalSign (sign : Option Char) : Prop := ∀ c ∈ sign, Character.isSign c = true

mutual

/-- Whether a tree begins with a sign or an opening parenthesis. -/
def Tree.leads : Tree → Bool
  | .chain _ first _ => first.leads
  | .group _ => true
  | .call sign _ _ _ => sign.isSome
  | .constant sign _ _ => sign.isSome
  | .numeral sign _ => sign.isSome
  | .signed _ _ => true

/-- Whether a tree stands at its level and uses the names of a vocabulary. -/
def Tree.Over (v : Vocabulary) : Tree → Level → Prop
  | .chain tier first rest, level =>
    level = .chain tier ∧ first.Over v tier.operands ∧ rest.Over v tier
  | .group inner, level => level = .factor ∧ inner.Over v (.chain .polynomial)
  | .call sign name f arguments, level =>
    level = .factor ∧ IsOptionalSign sign ∧ (name, f) ∈ v.functions.entries ∧ arguments.Over v
  | .constant sign name value, level =>
    level = .factor ∧ IsOptionalSign sign ∧ (name, value) ∈ v.constants.entries
  | .numeral sign digits, level =>
    level = .factor ∧ IsOptionalSign sign ∧ IsPlainNumeral digits
  | .signed sign inner, level =>
    level = .factor ∧ Character.isSign sign = true ∧ inner.leads = true ∧
      inner.Over v (.chain .polynomial)

/-- Whether operators are of a tier and operands stand at its level. -/
def Links.Over (v : Vocabulary) : Links → Tier → Prop
  | .nil, _ => True
  | .cons name op right rest, tier =>
    (name, op) ∈ v.operatorsOf tier ∧ right.Over v tier.operands ∧ rest.Over v tier

/-- Whether every argument is a polynomial over a vocabulary. -/
def Arguments.Over (v : Vocabulary) : Arguments → Prop
  | .nil => True
  | .cons first rest => first.Over v (.chain .polynomial) ∧ rest.Over v

end

mutual

/-- The tokens of a tree, in order. -/
def Tree.tokens : Tree → List (List Char)
  | .chain _ first rest => first.tokens ++ rest.tokens
  | .group inner => ['('] :: (inner.tokens ++ [[')']])
  | .call sign name _ arguments =>
    sign.toList.map ([·]) ++ name.toList :: ['('] :: (arguments.tokens ++ [[')']])
  | .constant sign name _ => sign.toList.map ([·]) ++ [name.toList]
  | .numeral sign digits => sign.toList.map ([·]) ++ [digits]
  | .signed sign inner => [sign] :: inner.tokens

/-- The tokens of operators and their right operands, in order. -/
def Links.tokens : Links → List (List Char)
  | .nil => []
  | .cons name _ right rest => name.toList :: (right.tokens ++ rest.tokens)

/-- The tokens of arguments with commas between them. -/
def Arguments.tokens : Arguments → List (List Char)
  | .nil => []
  | .cons first .nil => first.tokens
  | .cons first rest => first.tokens ++ [','] :: rest.tokens

end

mutual

/-- The value of a tree. A sign in front of a name or of digits belongs to the
    text of the number; in front of a group it negates. -/
def Tree.value : Tree → Interaction EvaluationResult
  | .chain _ first rest => first.value.onward rest.value
  | .group inner => inner.value
  | .call sign name f arguments =>
    arguments.values.onward fun xs =>
      .ask (.function name f xs) fun x => .done ((Numeral.Draft.ofSign sign).pushValue x).read
  | .constant sign _ value => .done ((Numeral.Draft.ofSign sign).pushValue value).read
  | .numeral sign digits => .done (Numeral.read (String.ofList (sign.toList ++ digits)))
  | .signed sign inner =>
    inner.value.onward fun x => .done ((Numeral.Draft.ofSign (some sign)).applySign x).read

/-- The value of what stands before operators, joined with their right operands. -/
def Links.value : Links → Float → Interaction EvaluationResult
  | .nil, x => .done (.ok x)
  | .cons name op right rest, x =>
    right.value.onward fun y => .ask (.operator name op x y) rest.value

/-- The values of arguments, from the left. -/
def Arguments.values : Arguments → Interaction (Except EvaluationError (List Float))
  | .nil => .done (.ok [])
  | .cons first rest =>
    first.value.onward fun x => rest.values.onward fun xs => .done (.ok (x :: xs))

end

/-- Tokens in order with ignored characters before, between and after them. -/
inductive Spaced : List (List Char) → List Char → Prop where
  | nil {gap : List Char} (ignored : gap.all Character.isIgnored = true) : Spaced [] gap
  | cons {gap token rest : List Char} {tokens : List (List Char)}
      (ignored : gap.all Character.isIgnored = true) (others : Spaced tokens rest) :
      Spaced (token :: tokens) (gap ++ token ++ rest)

/-- Whether a text writes a polynomial over a vocabulary. -/
def Tree.Spells (v : Vocabulary) (t : Tree) (text : String) : Prop :=
  t.Over v (.chain .polynomial) ∧ Spaced t.tokens text.toList

end Calculator
