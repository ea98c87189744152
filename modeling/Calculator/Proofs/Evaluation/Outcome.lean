import Calculator.Proofs.Evaluation.Exhaustion
import Calculator.Proofs.Evaluation.Position

/-!
# Whole texts

What a text comes to when callables are answered. A text from which a tree is read
comes to what the tree comes to, whoever answers; and a text that comes to a value
writes a tree with that value.
-/
namespace Calculator
open Unread

variable {m : Type → Type} [Monad m]

/-- The reading of a text whose callables are answered by `answer`. -/
def Grammar.read (answer : Call → m CallResult) (v : Vocabulary) (text : String) :
    m (Reading Float (.ofString text)) :=
  (Grammar.expression v (.ofString text)).run fun request _ => answer request

/-- The result of a text whose callables are answered by `answer`. -/
def Grammar.evaluate (answer : Call → m CallResult) (v : Vocabulary) (text : String) :
    m EvaluationResult :=
  Reading.result <$> Grammar.read answer v text

/-- The value of a tree whose callables are answered by `answer`. -/
def Tree.evaluate (answer : Call → m CallResult) (t : Tree) : m EvaluationResult :=
  t.value.run fun request _ => answer request

/-- Exact answer of a callable that asks for nothing; any other is answered zero. -/
def Call.finish (request : Call) : CallResult :=
  match request.script with
  | .finish result => result
  | _ => .ok 0

/-- The tree of a factor that stands alone. -/
def Tree.lone (factor : Tree) : Tree :=
  .chain .polynomial (.chain .monomial (.chain .factor factor .nil) .nil) .nil

theorem Links.value_nil : Links.value .nil = fun x => .done (.ok x) := by
  funext x
  rw [Links.value]

theorem Tree.value_lone (factor : Tree) : factor.lone.value = factor.value := by
  simp only [Tree.lone, Tree.value, Links.value_nil, Reader.onward_done]

namespace Grammar

variable {v : Vocabulary}

/-! ## Texts with a tree -/

/-- What is left of a text behind its polynomial: the end, or something else. -/
def ending (value : Float) (c : Cursor) : Reader Float c :=
  if c.skipIgnored.isOver then .value value c.skipIgnored (Cursor.skipIgnored_ahead_le c)
  else .failure (.trailing c.skipIgnored.remaining) c.skipIgnored (Cursor.skipIgnored_ahead_le c)

theorem expression_of_nonempty {text : String} (nonempty : text.toList ≠ []) :
    expression v (.ofString text) =
      (chain v .polynomial (.ofString text)).andThen fun x c _ => ending x c := by
  have atStart : ¬ (Cursor.ofString text).location ≠ 0 := by simp [Cursor.ofString, Cursor.location]
  have more : ¬ (Cursor.ofString text).isOver = true := by
    simpa [Cursor.ofString, Cursor.isOver] using nonempty
  rw [expression, if_neg atStart, if_neg more]
  rfl

theorem expression_of_empty {text : String} (empty : text.toList = []) :
    Reader.Barren (expression v (.ofString text)) := by
  have atStart : ¬ (Cursor.ofString text).location ≠ 0 := by simp [Cursor.ofString, Cursor.location]
  have ended : (Cursor.ofString text).isOver = true := by simp [Cursor.ofString, Cursor.isOver, empty]
  rw [expression, if_neg atStart, if_pos ended]
  exact .failure

/-- An expression follows the value of the tree that is read from its whole text. -/
theorem expression_follows {t : Tree} {text : String} {left : List Char}
    (stands : t.Over v (.chain .polynomial)) (reads : t.Reads v text.toList left)
    (ended : skip left = []) : Reader.Follows [] (expression v (.ofString text)) t.value := by
  have nonempty : text.toList ≠ [] := by
    intro empty
    exact reads.nonblank (by rw [empty, skip_nil])
  rw [expression_of_nonempty nonempty, ← Reader.onward_done t.value]
  refine (reads.follows t stands rfl).andThen fun x c _ reached => ?_
  rw [ending, if_pos (isOver_of_skip_nil (reached.trans ended))]
  refine .value ?_
  rw [skipIgnored_ahead, reached, ended]

/-- Whoever answers, a text comes to what the tree that is read from it comes to. -/
theorem evaluate_of_reads [LawfulMonad m] (answer : Call → m CallResult) {t : Tree} {text : String}
    {left : List Char} (stands : t.Over v (.chain .polynomial))
    (reads : t.Reads v text.toList left) (ended : skip left = []) :
    evaluate answer v text = t.evaluate answer :=
  (expression_follows stands reads ended).run answer

/-- Digits that no name takes come to the number they spell. -/
theorem evaluate_of_plain [LawfulMonad m] (answer : Call → m CallResult) {ds : List Char}
    (plain : IsPlainNumeral ds) (noFunction : v.functionAt? ds = none)
    (noConstant : v.constantAt? ds = none) :
    evaluate answer v (String.ofList ds) = pure (Numeral.read (String.ofList ds)) := by
  have stands : Tree.Over v (.lone (.numeral none ds)) (.chain .polynomial) :=
    ⟨rfl, ⟨rfl, ⟨rfl, ⟨rfl, nofun, plain⟩, trivial⟩, trivial⟩, trivial⟩
  have begins : skip ds = ds := by simpa using skip_of_plain plain []
  have reads : Tree.Reads v (.lone (.numeral none ds)) (String.ofList ds).toList [] := by
    rw [String.toList_ofList]
    have ended : ∀ tier, v.operatorAt? tier [] = none := fun _ => first?_eq_none_of_end rfl _
    refine ⟨[], ⟨[], ⟨[], ?_, ended _, rfl⟩, ended _, rfl⟩, ended _, rfl⟩
    obtain ⟨c, rest, rfl, digit⟩ := exists_digit_of_plain plain
    obtain ⟨-, unsigned, unopened⟩ := isIgnored_of_isDigit digit
    exact ⟨c :: rest, ⟨begins.symm, c, rest, begins, unopened, unsigned⟩, noFunction, noConstant,
      (List.append_nil _).symm, nofun⟩
  rw [evaluate_of_reads answer stands reads rfl, Tree.evaluate, Tree.value_lone]
  rfl

/-! ## Texts with a value -/

/-- A text from which no tree is read to its end comes to no value. -/
theorem expression_decided (v : Vocabulary) (text : String) :
    (∃ t left, Tree.Over v t (.chain .polynomial) ∧ t.Reads v text.toList left ∧
      skip left = []) ∨ Reader.Barren (expression v (.ofString text)) := by
  by_cases empty : text.toList = []
  · exact .inr (expression_of_empty empty)
  · rcases decided v (.chain .polynomial) text.toList with ⟨t, left, stands, reads⟩ | barren
    · by_cases ended : skip left = []
      · exact .inl ⟨t, left, stands, reads, ended⟩
      · refine .inr ?_
        rw [expression_of_nonempty empty]
        refine (reads.follows t stands rfl).barren_andThen fun x c _ reached => ?_
        have more : ¬ c.skipIgnored.isOver = true := by
          rw [Cursor.isOver, skipIgnored_ahead, reached, List.isEmpty_iff]
          exact ended
        rw [ending, if_neg more]
        exact .failure
    · refine .inr ?_
      rw [expression_of_nonempty empty]
      exact (barren (.ofString text) rfl).andThen

/-- A text that comes to a value is read to its end as a tree that has this value. -/
theorem exists_reads_of_value {answers : Call → CallResult} {text : String} {x : Float}
    (value : evaluate (m := Id) answers v text = .ok x) :
    ∃ t left, Tree.Over v t (.chain .polynomial) ∧ t.Reads v text.toList left ∧ skip left = [] ∧
      t.evaluate (m := Id) answers = .ok x := by
  rcases expression_decided v text with ⟨t, left, stands, reads, ended⟩ | barren
  · refine ⟨t, left, stands, reads, ended, ?_⟩
    rw [← evaluate_of_reads (m := Id) answers stands reads ended]
    exact value
  · exact absurd value (barren.run answers x)

/-- Also where callables keep something, a tree is read from a text that comes to a value. -/
theorem exists_reads_of_state {σ : Type} {answer : Call → StateM σ CallResult} {text : String}
    {x : Float} {s s' : σ} (value : (evaluate answer v text).run s = (.ok x, s')) :
    ∃ t left, Tree.Over v t (.chain .polynomial) ∧ t.Reads v text.toList left ∧ skip left = [] := by
  rcases expression_decided v text with found | barren
  · exact found
  · exact absurd (congrArg Prod.fst value) (barren.run_state answer s x)

/-- A value of an expression is reached behind its last character. -/
theorem read_cursor {answers : Call → CallResult} {text : String} {x : Float}
    (value : (read (m := Id) answers v text).result = .ok x) :
    (read (m := Id) answers v text).cursor.ahead = [] := by
  by_cases empty : text.toList = []
  · exact absurd value ((expression_of_empty empty).run answers x)
  · rw [read, expression_of_nonempty empty] at value ⊢
    refine Reader.run_andThen_cursor answers (P := (·.ahead = [])) ?_ value
    intro y c _ z value
    rw [ending] at value ⊢
    split at value
    · rename_i ended
      rw [if_pos ended]
      exact List.isEmpty_iff.1 ended
    · exact nomatch value

/-- A text that comes to a value is read to its last character and writes a tree
    over the declared names that has this value. -/
theorem exists_tree_of_value {v : Vocabulary} {answers : Call → CallResult} {text : String}
    {x : Float} (value : (read (m := Id) answers v text).result = .ok x) :
    (read (m := Id) answers v text).cursor = ⟨text.toList.reverse, []⟩ ∧
      ∃ t : Tree, t.Spells v text ∧ t.evaluate (m := Id) answers = .ok x := by
  constructor
  · have within := (expression_keeps v text).run fun request _ => answers request
    have ended := read_cursor value
    have kept := within.text
    change (read (m := Id) answers v text).cursor.text = _ at kept
    generalize (read (m := Id) answers v text).cursor = c at ended kept
    obtain ⟨passed, ahead⟩ := c
    cases ended
    simp only [Cursor.text, Cursor.ofString, List.append_nil, List.reverse_nil,
      List.nil_append] at kept
    rw [← kept, List.reverse_reverse]
  · obtain ⟨t, left, stands, reads, ended, same⟩ := exists_reads_of_value value
    refine ⟨t, ⟨stands, ?_⟩, same⟩
    obtain ⟨written, split, spaced⟩ := reads.writes t
    obtain ⟨gap, ignored, blank⟩ := exists_gap left
    rw [ended, List.append_nil] at blank
    have spelled := spaced.append (.nil ignored)
    rwa [List.append_nil, ← blank, ← split] at spelled

/-- A sign, a gap and a group come to a value over no declared names. -/
theorem exists_tree_of_signed_group :
    (read (m := Id) (fun _ => .ok 0) .empty "- (7)\n").result = .ok (-7) ∧
      (read (m := Id) (fun _ => .ok 0) .empty "- (7)\n").cursor =
          ⟨"- (7)\n".toList.reverse, []⟩ ∧
        ∃ t : Tree, t.Spells .empty "- (7)\n" ∧
          t.evaluate (m := Id) (fun _ => .ok 0) = .ok (-7) := by
  have plain : IsPlainNumeral ['7'] := plain_of_isDigit (by decide)
  have stands : Tree.Over .empty (.lone (.signed '-' (.lone (.group (.lone (.numeral none ['7']))))))
      (.chain .polynomial) := by
    simp [Tree.lone, Tree.Over, Links.Over, Tier.operands, Tree.leads, Character.isSign,
      IsOptionalSign, plain]
  have seven : Tree.Reads .empty (.lone (.numeral none ['7'])) ['7', ')', '\n'] [')', '\n'] := by
    refine ⟨_, ⟨_, ⟨_, ?_, rfl, rfl⟩, rfl, rfl⟩, rfl, rfl⟩
    refine ⟨['7', ')', '\n'], ⟨rfl, '7', _, rfl, by decide, rfl⟩, rfl, rfl, rfl, ?_⟩
    rintro c ⟨⟩
    decide
  have group : Tree.Reads .empty (.lone (.group (.lone (.numeral none ['7']))))
      ['(', '7', ')', '\n'] ['\n'] :=
    ⟨_, ⟨_, ⟨_, ⟨_, _, rfl, seven, rfl⟩, rfl, rfl⟩, rfl, rfl⟩, rfl, rfl⟩
  have reads : Tree.Reads .empty
      (.lone (.signed '-' (.lone (.group (.lone (.numeral none ['7']))))))
      "- (7)\n".toList ['\n'] :=
    ⟨_, ⟨_, ⟨_, ⟨_, ⟨rfl, _, rfl, rfl⟩, rfl, rfl, rfl, group⟩, rfl, rfl⟩, rfl, rfl⟩, rfl, rfl⟩
  have value := evaluate_of_reads (m := Id) (fun _ => .ok 0) stands reads rfl
  have negated : Tree.evaluate (m := Id) (fun _ => .ok 0)
      (.lone (.signed '-' (.lone (.group (.lone (.numeral none ['7'])))))) = .ok (-7) := rfl
  exact ⟨value.trans negated, exists_tree_of_value (value.trans negated)⟩

end Grammar

end Calculator
