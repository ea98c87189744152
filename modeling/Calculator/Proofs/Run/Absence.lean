import Calculator.Proofs.Evaluation.Activation
import Calculator.Proofs.Evaluation.Calls
import Calculator.Proofs.Run.Nesting
import Calculator.Proofs.Vocabulary.WellFormed

/-!
# Names that a text does not hold

A declaration has no say in a text in which its name cannot come next. Wherever a rule
is entered, the other names are tried in the same order with the declaration and without
it, so the text waits for the same calls at the same positions and comes to the same.
-/
namespace Calculator

/-- The name is no part of the text, or begins with a character that is skipped. -/
def Absent (name : String) (text : List Char) : Prop :=
  ¬ name.toList <:+: text ∨ name.toList.head?.any Character.isIgnored = true

theorem Absent.accept?_eq_none {name : String} {c : Cursor} (absent : Absent name c.text) :
    c.accept? name = none := by
  cases accepted : c.accept? name with
  | none => rfl
  | some d =>
    have ahead := Unread.accept?_ahead c name
    rw [accepted, Option.map_some, eq_comm, Unread.accept?_eq_some_iff] at ahead
    obtain ⟨behind, begins, -⟩ := ahead
    rcases absent with outside | ignored
    · have inside : name.toList <:+: Unread.skip c.ahead := ⟨[], behind, begins.symm⟩
      have suffix : c.ahead <:+ c.text := ⟨c.passed.reverse, rfl⟩
      exact absurd (inside.trans ((List.dropWhile_suffix _).trans suffix).isInfix) outside
    · obtain ⟨x, rest, spelled, skipped⟩ := Unread.exists_cons_of_head ignored
      rw [spelled] at begins
      rw [Unread.isIgnored_of_skip_eq_cons begins] at skipped
      cases skipped

/-! ## Tables without a name -/

section

variable {α : Type} {name : String}

theorem takeFirst?_filter {start : Cursor} (missing : start.accept? name = none)
    (fits : Cursor → Bool) (entries : List (String × α)) :
    takeFirst? start fits (entries.filter fun entry => entry.1 ≠ name) =
      takeFirst? start fits entries := by
  induction entries with
  | nil => rfl
  | cons entry rest ih =>
    obtain ⟨other, declaration⟩ := entry
    by_cases same : other = name
    · subst same
      rw [List.filter_cons_of_neg (by simp), ih, takeFirst?]
      split
      · split
        · rfl
        · rename_i cursor accepted
          rw [missing] at accepted
          cases accepted
      · rfl
    · rw [List.filter_cons_of_pos (by simpa using same), takeFirst?, takeFirst?, ih]

end

namespace Grammar

/-- Where a name does not come next, its declaration is not taken. -/
theorem alike_of_remove {v w : Vocabulary} {kind : Kind} {name : String} {declaration : Declaration}
    (removed : v.remove kind name = .ok (declaration, w)) {c : Cursor}
    (missing : c.accept? name = none) : Alike v w c := by
  cases kind with
  | constant =>
    obtain ⟨⟨_, u⟩, unregistered, same⟩ := exists_of_map_eq_ok removed
    obtain ⟨-, rfl⟩ := Table.of_unregister unregistered
    cases same
    refine ⟨fun _ => rfl, rfl, ?_⟩
    rw [Vocabulary.takeConstant?, Vocabulary.takeConstant?, takeFirst?_filter missing]
  | function =>
    obtain ⟨⟨_, u⟩, unregistered, same⟩ := exists_of_map_eq_ok removed
    obtain ⟨-, rfl⟩ := Table.of_unregister unregistered
    cases same
    refine ⟨fun _ => rfl, ?_, rfl⟩
    rw [Vocabulary.takeFunction?, Vocabulary.takeFunction?, takeFirst?_filter missing]
  | operator =>
    obtain ⟨⟨_, u⟩, unregistered, same⟩ := exists_of_map_eq_ok removed
    obtain ⟨-, rfl⟩ := Table.of_unregister unregistered
    cases same
    refine ⟨fun tier => ?_, rfl, rfl⟩
    rw [Vocabulary.takeOperator?, Vocabulary.takeOperator?, Vocabulary.operatorsOf,
      Vocabulary.operatorsOf, Table.entriesWhere, Table.entriesWhere, List.filter_comm,
      takeFirst?_filter missing]

/-- A text waits for the same calls and comes to the same without a name that it does
    not hold. -/
theorem expression_of_absent {v w : Vocabulary} {kind : Kind} {name : String}
    {declaration : Declaration} (removed : v.remove kind name = .ok (declaration, w))
    {text : String} (absent : Absent name text.toList) :
    expression v (.ofString text) = expression w (.ofString text) := by
  have chains : chain v .polynomial (.ofString text) = chain w .polynomial (.ofString text) := by
    -- Rules are entered in the text alone, so the name comes next nowhere.
    have agree := rules_agree (v := v) (w := w) (P := fun a => a.2.text = text.toList)
      (fun inside enters => enters.within.text.trans inside)
      (fun inside => alike_of_remove removed (Absent.accept?_eq_none (inside ▸ absent)))
    exact agree.1 .polynomial (.ofString text) rfl
  rw [expression, expression, chains]

end Grammar

section

variable {v w : Vocabulary} {kind : Kind} {name : String} {declaration : Declaration}

/-- A declaration can be removed without any effect on a text that does not hold its name:
    the text waits for the same calls, with the same arguments and at the same positions,
    and comes to the same, whoever answers; and an evaluator gives the same answer with the
    declaration and without it, and leaves the same cells, numbers and lines behind. -/
theorem evaluate_of_absent (removed : v.remove kind name = .ok (declaration, w)) {text : String}
    (absent : Absent name text.toList) :
    Grammar.expression v (.ofString text) = Grammar.expression w (.ofString text) ∧
      (∀ answers, Grammar.evaluate (m := Id) answers v text = Grammar.evaluate (m := Id) answers w text ∧
        Grammar.calls answers v text = Grammar.calls answers w text) ∧
      ∀ (evaluators : Evaluators) (evaluator : String) (settings : Settings) (m : Machine),
        evaluators.find? evaluator = some ⟨settings, v⟩ →
          Run.evaluate evaluators evaluator text m =
            Run.evaluate (evaluators.put evaluator ⟨settings, w⟩) evaluator text m := by
  have reads := Grammar.expression_of_absent removed absent
  refine ⟨reads, fun answers => ?_, fun evaluators evaluator settings m found => ?_⟩
  · constructor
    · rw [Grammar.evaluate, Grammar.evaluate, Grammar.read, Grammar.read, reads]
    · rw [Grammar.calls, Grammar.calls, reads]
  · exact Run.evaluate_put found reads m

/-- The text holds no power, though it holds an asterisk. -/
theorem evaluate_without_power :
    ∃ declaration w, Standard.vocabulary.remove .operator "**" = .ok (declaration, w) ∧
      Absent "**" "2 * ceil(-3.5)".toList ∧
      Grammar.expression Standard.vocabulary (.ofString "2 * ceil(-3.5)") =
        Grammar.expression w (.ofString "2 * ceil(-3.5)") := by
  have absent : Absent "**" "2 * ceil(-3.5)".toList := by
    left
    decide
  cases removed : Standard.vocabulary.remove .operator "**" with
  | error e =>
    have listed : (Standard.vocabulary.operators.find? "**").isSome = true := by decide
    obtain ⟨op, found⟩ := Option.isSome_iff_exists.1 listed
    simp [Vocabulary.remove, Table.unregister, found, Except.map] at removed
  | ok result =>
    obtain ⟨declaration, w⟩ := result
    exact ⟨declaration, w, rfl, absent, (evaluate_of_absent removed absent).1⟩

end

end Calculator
