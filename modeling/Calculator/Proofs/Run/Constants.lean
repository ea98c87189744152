import Calculator.Proofs.Run.Reentrancy
import Calculator.Proofs.Vocabulary.Lookup

/-!
# Registered constants

A text that is the name of a constant comes to the constant. No other declaration has a
say in it: a longer name does not fit into the text, a shorter one is tried later, a
function needs a parenthesis, which no name holds, and nothing is left for an operator.
-/
namespace Calculator
open Unread

/-! ## Names that are whole texts -/

/-- No function comes next in a text without an opening parenthesis. -/
theorem functionAt?_of_unopened {v : Vocabulary} {text : List Char} (unopened : '(' ∉ text) :
    v.functionAt? text = none := by
  rw [Option.eq_none_iff_forall_ne_some]
  rintro ⟨name, f, left⟩ found
  obtain ⟨-, -, accepted, opens⟩ := of_first?_eq_some found
  obtain ⟨behind, ahead, rfl⟩ := accept?_eq_some_iff.1 accepted
  obtain ⟨opened, begins⟩ := opensParenthesis_iff.1 opens
  rw [skip_skip] at begins
  -- What stands behind a name stands in the text.
  have inside : '(' ∈ skip behind := by rw [begins]; exact List.mem_cons_self
  have within : skip behind <:+ text :=
    (List.dropWhile_suffix _).trans ((List.suffix_append name.toList behind).trans
      (ahead ▸ List.dropWhile_suffix _))
  exact unopened (within.subset inside)

/-- The name that is the whole text is the longest one that comes next. -/
theorem first?_of_whole {α : Type} {entries : List (String × α)} {name : String} {declaration : α}
    (sorted : entries.Pairwise fun a b => Table.Precedes a.1 b.1)
    (listed : (name, declaration) ∈ entries) (nonempty : name.toList ≠ [])
    (visible : skip name.toList = name.toList) :
    first? (fun _ => true) name.toList entries = some (name, declaration, []) := by
  have ahead : skip name.toList = name.toList ++ [] := by rw [visible, List.append_nil]
  refine first?_eq_some_of_longest sorted listed nonempty
    (accept?_eq_some_iff.2 ⟨[], ahead, rfl⟩) rfl ?_
  intro other _ left accepted _
  have front := prefix_of_accept? accepted
  rw [visible] at front
  rw [← String.length_toList, ← String.length_toList]
  exact front.length_le

/-- The text of a constant's name is read as the constant. -/
theorem reads_of_constant_name {v : Vocabulary} (wellFormed : v.WellFormed) {name : String}
    {x : Float} (listed : (name, x) ∈ v.constants.entries) (callable : Callable name) :
    (Tree.lone (.constant none name x)).Over v (.chain .polynomial) ∧
      (Tree.lone (.constant none name x)).Reads v name.toList [] := by
  have free : ∀ c, Character.isReserved c = true → c ∉ name.toList := fun c reserved =>
    wellFormed.constants.free reserved _ listed
  obtain ⟨nonempty, visible⟩ := Join.skip_of_visible (wellFormed.constants.2 _ listed)
    (fun c begins => (callable c begins).1) []
  rw [List.append_nil] at visible
  have signed : Signed none name.toList name.toList := by
    obtain ⟨c, rest, begins⟩ := List.exists_cons_of_ne_nil nonempty
    refine ⟨visible.symm, c, rest, by rw [visible, begins], ?_, (callable c (by rw [begins]; rfl)).2⟩
    rintro rfl
    exact free '(' (by decide) (by rw [begins]; exact List.mem_cons_self)
  have factor : Tree.Over v (.constant none name x) .factor := ⟨rfl, nofun, listed⟩
  have reads : Tree.Reads v (.constant none name x) name.toList [] :=
    ⟨_, signed, functionAt?_of_unopened (free '(' (by decide)),
      first?_of_whole wellFormed.constants.1 listed nonempty visible⟩
  exact ⟨factor.lone, reads.lone rfl⟩

/-- The text of a constant's name comes to the constant without any call. -/
theorem Grammar.expression_of_constant_name {v : Vocabulary} (wellFormed : v.WellFormed)
    {name : String} {x : Float} (listed : (name, x) ∈ v.constants.entries) (callable : Callable name) :
    ∃ reading : Reading Float (.ofString name),
      expression v (.ofString name) = .done reading ∧ reading.result = .ok x := by
  obtain ⟨stands, reads⟩ := reads_of_constant_name wellFormed listed callable
  have follows := expression_follows stands reads rfl
  have value : (Tree.lone (.constant none name x)).value = .done (.ok x) := by
    rw [Tree.value_lone, Tree.value, Numeral.Draft.pushValue_read]
  rw [value] at follows
  generalize expression v (.ofString name) = p at follows
  cases follows
  exact ⟨_, rfl, rfl⟩

/-! ## Registration -/

/-- A constant that was registered is listed. -/
theorem Vocabulary.mem_of_declared {v w : Vocabulary} {name : String} {x : Float}
    (reachable : v.Reachable) (declared : v.declare name (.constant x) = .ok w) :
    (name, x) ∈ w.constants.entries := by
  have wellFormed := (reachable.declare declared).wellFormed
  obtain ⟨t, registered, rfl⟩ := exists_of_map_eq_ok declared
  rw [← wellFormed.constants.find?_eq_some_iff]
  unfold Table.register at registered
  split at registered
  · cases registered
  · cases registered
    exact v.constants.find?_define_self name x

namespace Run

variable {evaluators : Evaluators} {slot expression : String} {evaluator : Evaluator} {m : Machine}

/-- An expression without calls is settled where it stands: callables keep what they keep. -/
theorem evaluate_of_done (found : evaluators.find? slot = some evaluator) (free : slot ∉ m.active)
    {reading : Reading Float (.ofString expression)}
    (done : Grammar.expression evaluator.vocabulary (.ofString expression) = .done reading) :
    ∃ n, evaluate evaluators slot expression m =
        some (some (evaluator.settings.settle reading.result), n) ∧
      n.cells = m.cells ∧ n.draws = m.draws := by
  have accepted : ∃ other k, opened (evaluate evaluators) slot evaluator.vocabulary expression m =
        some (other, k) ∧ _ := evaluate_accepted found free
  obtain ⟨other, k, ran, -, answers, -⟩ := accepted
  rw [opened, done] at ran
  cases ran
  refine ⟨_, answers, ?_⟩
  obtain ⟨journal, same⟩ :=
    Machine.exited_eq (m.opening slot expression) evaluator.settings reading.result
  constructor
  · exact (congrArg Machine.cells same).trans (Machine.leave_cells _)
  · exact (congrArg Machine.draws same).trans (Machine.leave_draws _)

/-- What the name of a constant comes to behind its registration. -/
structure Registers (settings : Settings) (w : Vocabulary) (name : String) (x : Float) : Prop where
  /-- Whoever answers, nothing is called. -/
  reads : ∃ reading : Reading Float (.ofString name),
    Grammar.expression w (.ofString name) = .done reading ∧ reading.result = .ok x
  /-- Among any evaluators and whatever happened before, an evaluator without an evaluation in
      progress answers the constant. -/
  answers : ∀ (evaluators : Evaluators) (slot : String) (m : Machine),
    evaluators.find? slot = some ⟨settings, w⟩ → slot ∉ m.active →
      ∃ n, evaluate evaluators slot name m = some (some (.ok x), n) ∧
        n.cells = m.cells ∧ n.draws = m.draws

/-- A registered constant evaluates to its value, whatever else is declared. -/
theorem registers_of_declared {settings : Settings} (allowed : settings.allowNan = true)
    {v w : Vocabulary} (reachable : v.Reachable) {name : String} {x : Float}
    (declared : v.declare name (.constant x) = .ok w) (callable : Callable name) :
    Registers settings w name x := by
  have listed := Vocabulary.mem_of_declared reachable declared
  have wellFormed := (reachable.declare declared).wellFormed
  obtain ⟨reading, done, value⟩ := Grammar.expression_of_constant_name wellFormed listed callable
  refine ⟨⟨reading, done, value⟩, fun evaluators slot m found free => ?_⟩
  obtain ⟨n, ran, cells, draws⟩ := evaluate_of_done found free done
  have settled : settings.settle (.ok x) = .ok x := by simp [Settings.settle, allowed]
  rw [value, settled] at ran
  exact ⟨n, ran, cells, draws⟩

/-- Names that are parts of a sum, and a function whose name is the whole sum. -/
def crowded : Vocabulary :=
  ((Standard.vocabulary.declareAll
    (.constants [("1.5", 3), ("1.5 +", 4), (".5 + E", 9)])).vocabulary.declareAll
    (.functions [("1.5 + E\n", .unary fun x => .value x)])).vocabulary

/-- A sum with a line feed behind it is the name of minus zero. -/
theorem registers_sum :
    ∃ w, crowded.declare "1.5 + E\n" (.constant (-0)) = .ok w ∧
      ∃ n, evaluate [("calc", ⟨⟨true, false⟩, w⟩)] "calc" "1.5 + E\n" (.start none) =
        some (some (.ok (-0)), n) := by
  have reachable : crowded.Reachable := .declareAll _ (.declareAll _ .standard)
  have callable : Callable "1.5 + E\n" := by
    rintro c ⟨⟩
    decide
  have accepted : crowded.constants.refusal? "1.5 + E\n" = none := by decide
  cases declared : crowded.declare "1.5 + E\n" (.constant (-0)) with
  | error e => simp [Vocabulary.declare, Table.register, accepted, Except.map] at declared
  | ok w =>
    have allowed : Settings.allowNan ⟨true, false⟩ = true := rfl
    have registers := registers_of_declared allowed reachable declared callable
    obtain ⟨n, ran, -⟩ := registers.answers [("calc", ⟨⟨true, false⟩, w⟩)] "calc" (.start none) rfl
      List.not_mem_nil
    exact ⟨w, rfl, n, ran⟩

end Run

end Calculator
