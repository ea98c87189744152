import Calculator.Proofs.Evaluation.SignedGroup
import Calculator.Proofs.Standard.Lexicon

/-!
# Standard operators behind signed groups

A sign in front of a group takes along the operator behind the group: the sign is applied
to the value of the operator and not to the group. Exactly where the operator has the
same outcome for a signed left operand, this makes no difference.
-/
namespace Calculator.Standard
open Unread

/-- A standard operator is taken by its name in front of every group. -/
theorem fits_of_listed {α : Type} {j : Join α}
    (listed : (j.name, j.op) ∈ vocabulary.operators.entries) : Join.Fits vocabulary j where
  declared := listed
  visible c begins := by
    have mark := operator_head listed
    rw [Option.mem_def.1 begins] at mark
    rw [← Bool.not_eq_true, Character.isIgnored_iff]
    rintro (rfl | rfl)
    · exact absurd mark (by decide)
    · exact absurd mark (by decide)
  unshadowed other others weaker := not_prefix_of_weaker listed others weaker

/-- The outcome of an operator between values. -/
def outcome (answers : Call → CallResult) (name : String) (op : Operator) (x y : Float) :
    EvaluationResult :=
  Join.apply answers (.ok x) ⟨name, op, .ok y⟩

/-- Exact text of a signed group, an operator and a group. -/
def signedText (sign : Char) (first name second : String) : String :=
  String.singleton sign ++ ("(" ++ first ++ ")" ++ (name ++ "(" ++ second ++ ")"))

/-- The sign is applied to the outcome of the operator. It is as if it were applied to
    the group alone exactly where it is a plus or goes along with the operator. -/
theorem evaluate_signedText (answers : Call → CallResult) {sign : Char}
    (isSign : Character.isSign sign = true) {name : String} {op : Operator}
    (listed : (name, op) ∈ vocabulary.operators.entries) {first second : String} {x y : Float}
    (left : Grammar.evaluate (m := Id) answers vocabulary first = .ok x)
    (right : Grammar.evaluate (m := Id) answers vocabulary second = .ok y) :
    Grammar.evaluate (m := Id) answers vocabulary (signedText sign first name second) =
        (outcome answers name op x y).map (Numeral.signed sign) ∧
      (Grammar.evaluate (m := Id) answers vocabulary (signedText sign first name second) =
          outcome answers name op (Numeral.signed sign x) y ↔
        sign = '+' ∨ (outcome answers name op x y).map (- ·) = outcome answers name op (-x) y) := by
  have fits : ∀ j ∈ [(⟨name, op, second, y⟩ : Join (String × Float))], Join.Fits vocabulary j := by
    intro j inside
    rw [List.mem_singleton.1 inside]
    exact fits_of_listed listed
  have valued : ∀ j ∈ [(⟨name, op, second, y⟩ : Join (String × Float))],
      Grammar.evaluate (m := Id) answers vocabulary j.operand.1 = .ok j.operand.2 := by
    intro j inside
    rw [List.mem_singleton.1 inside]
    exact right
  have whole := Join.evaluate_signed_text vocabulary_wellFormed answers isSign _ left valued fits
  have flat : Grammar.evaluate (m := Id) answers vocabulary (signedText sign first name second) =
      (outcome answers name op x y).map (Numeral.signed sign) := by
    rw [outcome, ← Join.reduce_singleton]
    simpa [Join.text, Join.texts, signedText, Join.map] using whole
  refine ⟨flat, ?_⟩
  rw [flat]
  rcases (Character.isSign_iff sign).1 isSign with rfl | rfl
  · have same : Numeral.signed '+' = id := by
      funext z
      rfl
    simp [same]
  · have negated : Numeral.signed '-' = (- ·) := by
      funext z
      rfl
    simp [negated]

/-- One under a minus plus two: the minus is applied to the sum. -/
theorem evaluate_negated_sum :
    Grammar.evaluate (m := Id) Call.finish vocabulary "-(1)+(2)" = .ok (-3) ∧
      outcome Call.finish "+" (valueOperator .polynomial (· + ·)) (Numeral.signed '-' 1) 2 = .ok 1 ∧
      Grammar.evaluate (m := Id) Call.finish vocabulary "-(1)+(2)" ≠
        outcome Call.finish "+" (valueOperator .polynomial (· + ·)) (Numeral.signed '-' 1) 2 := by
  have plus : ("+", valueOperator .polynomial (· + ·)) ∈ vocabulary.operators.entries :=
    List.mem_iff_getElem?.2 ⟨7, rfl⟩
  have one : Grammar.evaluate (m := Id) Call.finish vocabulary "1" = .ok 1 :=
    Grammar.evaluate_of_plain (m := Id) Call.finish (Grammar.plain_of_isDigit (by decide))
      (functionAt?_of_other (by decide)) (constantAt?_of_other (by decide))
  have two : Grammar.evaluate (m := Id) Call.finish vocabulary "2" = .ok 2 :=
    Grammar.evaluate_of_plain (m := Id) Call.finish (Grammar.plain_of_isDigit (by decide))
      (functionAt?_of_other (by decide)) (constantAt?_of_other (by decide))
  obtain ⟨flat, -⟩ := evaluate_signedText Call.finish (by decide : Character.isSign '-' = true) plus one two
  have text : signedText '-' "1" "+" "2" = "-(1)+(2)" := by decide
  have sum : (outcome Call.finish "+" (valueOperator .polynomial (· + ·)) 1 2).map
      (Numeral.signed '-') = .ok (-3) := by
    decide +kernel
  have other : outcome Call.finish "+" (valueOperator .polynomial (· + ·)) (Numeral.signed '-' 1) 2 =
      .ok 1 := by
    decide +kernel
  rw [text, sum] at flat
  refine ⟨flat, other, ?_⟩
  rw [flat, other, Ne, Except.ok.injEq]
  decide +kernel

end Calculator.Standard
