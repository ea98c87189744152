import Calculator.Proofs.Evaluation.Activation
import Calculator.Proofs.Run.CallChain

/-!
# Every evaluation ends

An evaluation goes on by entering another rule of its expression, or by starting an
evaluation on an evaluator that is idle. The first leaves less text or a lower rank, the
second one evaluator less; so there is no endless run, over any evaluators. Evaluations
therefore return, with as much nesting as there are evaluators, and more of it makes no
difference.
-/
namespace Calculator

/-- Where an evaluation stands: the evaluators with one in progress, the innermost first,
    and the rule that the innermost has entered. -/
structure Activation where
  chain : List String
  entered : Grammar.Rule × Cursor

namespace Activation

/-- An evaluation goes on: the innermost one enters a further rule, or it starts another one
    on an evaluator that is idle. -/
inductive Enters (evaluators : Evaluators) : Activation → Activation → Prop where
  | rule {chain : List String} {name : String} {evaluator : Evaluator}
      {a b : Grammar.Rule × Cursor} (found : evaluators.find? name = some evaluator)
      (enters : Grammar.Enters evaluator.vocabulary a b) :
      Enters evaluators ⟨name :: chain, a⟩ ⟨name :: chain, b⟩
  | evaluation {chain : List String} {name : String} {evaluator : Evaluator}
      (a : Grammar.Rule × Cursor) (text : String)
      (found : evaluators.find? name = some evaluator) (free : name ∉ chain) :
      Enters evaluators ⟨chain, a⟩ ⟨name :: chain, (.at (.chain .polynomial), .ofString text)⟩

/-- What decreases: the number of idle evaluators, the text ahead, and the rank of the rule. -/
def measure (evaluators : Evaluators) (a : Activation) : Nat × Nat × Nat :=
  (evaluators.idle a.chain, Grammar.measure a.entered)

variable {evaluators : Evaluators} {a b : Activation}

theorem Enters.measure_lt (enters : Enters evaluators a b) :
    Prod.Lex (· < ·) (Prod.Lex (· < ·) (· < ·)) (measure evaluators b) (measure evaluators a) := by
  cases enters with
  | rule found enters => exact .right _ enters.measure_lt
  | evaluation a text found free => exact .left _ _ (Evaluators.idle_cons_lt found free)

theorem wellFounded_enters (evaluators : Evaluators) :
    WellFounded fun b a => Enters evaluators a b :=
  Subrelation.wf Enters.measure_lt
    (InvImage.wf (measure evaluators)
      (WellFounded.prod_lex Nat.lt_wfRel.wf (WellFounded.prod_lex Nat.lt_wfRel.wf Nat.lt_wfRel.wf)))

end Activation

namespace Run

variable {evaluators : Evaluators} {chain : List String} {name expression : String} {m : Machine}

/-- No more evaluations are read at one time than there are evaluators. -/
theorem Started.length_le (started : Started evaluators chain name expression m)
    {evaluator : Evaluator} (found : evaluators.find? name = some evaluator) (free : name ∉ chain) :
    (name :: chain).length ≤ evaluators.length := by
  have distinct : (name :: chain).Nodup := List.nodup_cons.2 ⟨free, started.nodup⟩
  have known : name :: chain ⊆ evaluators.map (·.1) :=
    List.cons_subset.2 ⟨List.mem_map_of_mem (Evaluators.mem_of_find? found), started.known⟩
  have bound := distinct.length_le_of_subset known
  rwa [List.length_map] at bound

/-- Evaluation ends. What it can enter on its way decreases in the number of idle evaluators,
    the text ahead and the rank of the rule, and so not without end; a number that a factor
    enters comes to a group only behind a sign. Evaluation answers on every machine, with
    every depth of nesting from the number of evaluators on alike, and no more evaluations
    are accepted inside one another than there are evaluators. -/
theorem evaluate_ends (evaluators : Evaluators) :
    (∀ a b, Activation.Enters evaluators a b →
      Prod.Lex (· < ·) (Prod.Lex (· < ·) (· < ·)) (Activation.measure evaluators b)
        (Activation.measure evaluators a)) ∧
    (WellFounded fun b a => Activation.Enters evaluators a b) ∧
    (∀ c d first, Cursor.next c true = (.ok first, d) → first ≠ '(' →
      Grammar.takeSign? d.retreat = none → Grammar.startsGroup d.retreat = false) ∧
    (∀ name expression m, ∃ answer n, evaluate evaluators name expression m = some (answer, n)) ∧
    (∀ depth, evaluators.length ≤ depth →
      evaluateWithin evaluators depth = evaluate evaluators) ∧
    ∀ chain name expression m evaluator, Started evaluators chain name expression m →
      evaluators.find? name = some evaluator → name ∉ chain →
        (name :: chain).length ≤ evaluators.length := by
  refine ⟨?_, Activation.wellFounded_enters evaluators, ?_, ?_, ?_, ?_⟩
  · intro a b enters
    exact enters.measure_lt
  · intro c d first found other unsigned
    exact Grammar.startsGroup_retreat found other unsigned
  · intro name expression m
    obtain ⟨answer, n, ran, -⟩ := evaluate_returns evaluators name expression m
    exact ⟨answer, n, ran⟩
  · intro depth enough
    funext name expression m
    exact evaluateWithin_eq ((Evaluators.idle_le_length evaluators m.active).trans enough)
  · intro chain name expression m evaluator started found free
    exact started.length_le found free

/-- Two evaluators that call each other have two evaluations inside one another, and not a
    third. -/
theorem evaluate_ends_duet :
    Prod.Lex (· < ·) (Prod.Lex (· < ·) (· < ·))
        (Activation.measure duet
          ⟨["second", "first"], (.at (.chain .polynomial), .ofString "back()")⟩)
        (Activation.measure duet ⟨["first"], (.arguments, .empty)⟩) ∧
      Grammar.startsGroup (.ofString "7") = false ∧
      (∃ answer n, evaluate duet "first" "again()" (.start none) = some (answer, n)) ∧
      evaluateWithin duet 5 = evaluate duet ∧
      ∃ m, Started duet ["first"] "second" "back()" m ∧ "second" ∉ ["first"] ∧
        ["second", "first"].length ≤ duet.length := by
  obtain ⟨decreases, -, unsigned, answers, deeper, bounded⟩ := evaluate_ends duet
  obtain ⟨m, k, started, -⟩ := started_duet
  have apart : "second" ∉ ["first"] := by decide
  refine ⟨decreases _ _ ?_, ?_, answers _ _ _, deeper 5 (by decide), m, started, apart, ?_⟩
  · exact .evaluation _ "back()" rfl apart
  · exact unsigned (.ofString "7") ⟨['7'], []⟩ '7' rfl (by decide) rfl
  · exact bounded _ _ _ _ _ started rfl apart

end Run

end Calculator
