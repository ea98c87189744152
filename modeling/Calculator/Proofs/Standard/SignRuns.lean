import Calculator.Proofs.Evaluation.Composition
import Calculator.Proofs.Standard.Language

/-!
# Runs of signs

Signs with ignored characters between and behind them, in front of a numeral or a group.
The last sign in front of a numeral is a part of its text; every other one stands in
front of a polynomial that begins with a sign or a parenthesis, and is applied to the
value of this polynomial. So no sign is ever written in front of a negative value.
-/
namespace Calculator.Standard
open Unread

/-- A sign and the ignored characters behind it. -/
structure SpacedSign where
  sign : Char
  gap : List Char
  isSign : Character.isSign sign = true
  ignored : gap.all Character.isIgnored = true

namespace SpacedSign

/-- Exact text of a run of signs. -/
def text : List SpacedSign → List Char
  | [] => []
  | s :: rest => s.sign :: (s.gap ++ text rest)

/-- The number of minus signs in a run. -/
def minuses (run : List SpacedSign) : ℕ := run.countP (·.sign = '-')

/-- A number negated once for each minus of a run. -/
def applied (run : List SpacedSign) (x : Float) : Float := (fun y => -y)^[minuses run] x

/-- The tree of a run of signs in front of a polynomial. -/
def before (t : Tree) : List SpacedSign → Tree
  | [] => t
  | s :: rest => .lone (.signed s.sign (before t rest))

/-! ## Multiplying out -/

theorem text_append (run : List SpacedSign) (s : SpacedSign) (operand : List Char) :
    text (run ++ [s]) ++ operand = text run ++ s.sign :: (s.gap ++ operand) := by
  induction run with
  | nil => simp [text]
  | cons first rest ih => simp [text, ih]

theorem applied_cons (s : SpacedSign) (run : List SpacedSign) (x : Float) :
    applied (s :: run) x = Numeral.signed s.sign (applied run x) := by
  rcases (Character.isSign_iff s.sign).1 s.isSign with plus | minus
  · simp [applied, minuses, Numeral.signed, plus]
  · simp [applied, minuses, Numeral.signed, minus, Function.iterate_succ_apply']

theorem applied_append (run : List SpacedSign) (s : SpacedSign) (x : Float) :
    applied (run ++ [s]) x = applied run (Numeral.signed s.sign x) := by
  induction run with
  | nil => exact applied_cons s [] x
  | cons first rest ih => rw [List.cons_append, applied_cons, applied_cons, ih]

theorem applied_of_even {run : List SpacedSign} (even : Even (minuses run)) (x : Float) :
    applied run x = x := by
  rw [applied, Number.neg_involutive.iterate_even even]
  rfl

theorem applied_of_odd {run : List SpacedSign} (odd : Odd (minuses run)) (x : Float) :
    applied run x = -x := by
  rw [applied, Number.neg_involutive.iterate_odd odd]

/-- Whoever answers, the value of a tree is negated once for each minus in front of it. -/
theorem evaluate_before {m : Type → Type} [Monad m] [LawfulMonad m] (answer : Call → m CallResult)
    (t : Tree) (run : List SpacedSign) :
    (before t run).evaluate answer = Except.map (applied run) <$> t.evaluate answer := by
  induction run with
  | nil =>
    have same : Except.map (ε := EvaluationError) (applied []) = id := by
      funext result
      cases result <;> rfl
    rw [before, same, id_map]
  | cons s rest ih =>
    rw [before, Tree.evaluate_signed answer s.isSign, ih, ← comp_map]
    refine congrArg (· <$> t.evaluate answer) (funext fun result => ?_)
    cases result with
    | error e => rfl
    | ok x => exact congrArg Except.ok (applied_cons s rest x).symm

/-! ## Reading -/

/-- A polynomial that can stand behind a sign is read from a text to its end. -/
structure Grouped (text : List Char) (t : Tree) : Prop where
  stands : t.Over vocabulary (.chain .polynomial)
  reads : t.Reads vocabulary text []
  visible : skip text = text
  group : startsGroup text = true

/-- Behind a sign no name comes next where a sign or a parenthesis stands. -/
theorem Grouped.unnamed {text : List Char} {t : Tree} (grouped : Grouped text t) :
    vocabulary.functionAt? text = none ∧ vocabulary.constantAt? text = none := by
  have group := grouped.group
  rw [startsGroup, Option.any_eq_true_iff_get] at group
  obtain ⟨some, mark⟩ := group
  obtain ⟨c, head⟩ := Option.isSome_iff_exists.1 some
  simp only [head, Option.get_some, Bool.or_eq_true, decide_eq_true_eq, Character.isSign_iff] at mark
  have letters : Char.isLower c = false ∧ Char.isUpper c = false := by
    rcases mark with (rfl | rfl) | rfl
    all_goals decide
  exact ⟨functionAt?_of_other (by rw [head]; exact letters.1),
    constantAt?_of_other (by rw [head]; exact letters.2)⟩

/-- One more sign in front of a polynomial that begins a group. -/
theorem Grouped.signed {text : List Char} {t : Tree} (grouped : Grouped text t) (s : SpacedSign) :
    Grouped (s.sign :: (s.gap ++ text)) (.lone (.signed s.sign t)) := by
  obtain ⟨noFunction, noConstant⟩ := grouped.unnamed
  obtain ⟨stands, reads⟩ := grouped.reads.signed s.isSign s.ignored grouped.group grouped.visible
    noFunction noConstant grouped.stands rfl
  have kept := isIgnored_of_isSign s.isSign
  refine ⟨stands, reads, skip_cons kept _, ?_⟩
  rw [startsGroup, skip_cons kept]
  simp [s.isSign]

/-- A run of signs in front of a polynomial that begins a group. -/
theorem Grouped.before {operand : List Char} {t : Tree} (grouped : Grouped operand t)
    (run : List SpacedSign) : Grouped (text run ++ operand) (before t run) := by
  induction run with
  | nil => exact grouped
  | cons s rest ih =>
    rw [text, List.cons_append, List.append_assoc]
    exact ih.signed s

/-- A sign in front of a plain numeral is a part of the number. -/
theorem grouped_numeral {ds : List Char} (plain : IsPlainNumeral ds) (s : SpacedSign) :
    Grouped (s.sign :: (s.gap ++ ds)) (.lone (.numeral (some s.sign) ds)) := by
  have kept := isIgnored_of_isSign s.isSign
  have begins : skip ds = ds := by simpa using Grammar.skip_of_plain plain []
  have behind : Signed (some s.sign) (s.sign :: (s.gap ++ ds)) ds :=
    ⟨s.isSign, _, skip_cons kept _, by rw [skip_gap s.ignored, begins]⟩
  obtain ⟨noFunction, noConstant⟩ := unnamed_of_plain plain []
  rw [List.append_nil] at noFunction noConstant
  have factor : Tree.Over vocabulary (.numeral (some s.sign) ds) .factor :=
    ⟨rfl, by rintro _ ⟨⟩; exact s.isSign, plain⟩
  refine ⟨factor.lone, Tree.Reads.lone ⟨_, behind, noFunction, noConstant,
    (List.append_nil _).symm, nofun⟩ rfl, skip_cons kept _, ?_⟩
  rw [startsGroup, skip_cons kept]
  simp [s.isSign]

/-- A whole expression in parentheses can stand behind a sign. -/
theorem grouped_group {inner : String} {t : Tree} {left : List Char}
    (stands : t.Over vocabulary (.chain .polynomial)) (reads : t.Reads vocabulary inner.toList left)
    (ended : skip left = []) : Grouped (groupText inner).toList (.lone (.group t)) := by
  have group := reads.group vocabulary_wellFormed ended []
  rw [← groupText_toList] at group
  have factor : Tree.Over vocabulary (.group t) .factor := ⟨rfl, stands⟩
  have visible : skip (groupText inner).toList = (groupText inner).toList := by
    rw [groupText_toList]
    exact skip_cons (by decide) _
  refine ⟨factor.lone, group.lone rfl, visible, ?_⟩
  rw [startsGroup, visible, groupText_toList]
  simp

/-! ## Whole texts -/

/-- Exact text of a run of signs in front of an operand. -/
def signedText (run : List SpacedSign) (operand : String) : String :=
  String.ofList (text run ++ operand.toList)

/-- A text that is read as a tree behind signs comes to the value of the tree behind them. -/
theorem Grouped.evaluate {m : Type → Type} [Monad m] [LawfulMonad m] {operand : String} {t : Tree}
    (grouped : Grouped operand.toList t) (answer : Call → m CallResult) (run : List SpacedSign) :
    Grammar.evaluate answer vocabulary (signedText run operand) =
      Except.map (applied run) <$> t.evaluate answer := by
  have whole := grouped.before run
  rw [← String.toList_ofList (l := text run ++ operand.toList)] at whole
  rw [signedText, Grammar.evaluate_of_reads answer whole.stands whole.reads rfl, evaluate_before]

/-- What signs in front of an operand come to. -/
structure Multiplies (run : List SpacedSign) : Prop where
  /-- Whoever answers, a numeral comes to a number, and behind signs to the signed number. -/
  numeral : ∀ ds, IsPlainNumeral ds → ∃ x, Numeral.read (String.ofList ds) = .ok x ∧
    ∀ {m : Type → Type} [Monad m] [LawfulMonad m] (answer : Call → m CallResult),
      Grammar.evaluate answer vocabulary (String.ofList ds) = pure (.ok x) ∧
        Grammar.evaluate answer vocabulary (signedText run (String.ofList ds)) =
          pure (.ok (applied run x))
  /-- Whatever callables keep, a group comes to the signed value of what is in it, and
      leaves what this leaves. -/
  group : ∀ {σ : Type} (answer : Call → StateM σ CallResult) (inner : String) (s s' : σ) (x : Float),
    (Grammar.evaluate answer vocabulary inner).run s = (.ok x, s') →
      (Grammar.evaluate answer vocabulary (signedText run (groupText inner))).run s =
        (.ok (applied run x), s')
  even : Even (minuses run) → ∀ x, applied run x = x
  /-- An odd number of minus signs flips the sign bit and leaves the others. -/
  odd : Odd (minuses run) → ∀ x, x.isNaN = false →
    Number.isNegative (applied run x) = !Number.isNegative x ∧
      Number.magnitude (applied run x) = Number.magnitude x
  nan : applied run Number.nan = Number.nan

theorem evaluate_numeral {m : Type → Type} [Monad m] [LawfulMonad m] {ds : List Char}
    (plain : IsPlainNumeral ds) {x : Float} (read : Numeral.read (String.ofList ds) = .ok x)
    (behind : ∀ sign, Character.isSign sign = true →
      Numeral.read (String.ofList (sign :: ds)) = .ok (Numeral.signed sign x))
    (answer : Call → m CallResult) (run : List SpacedSign) :
    Grammar.evaluate answer vocabulary (signedText run (String.ofList ds)) =
      pure (.ok (applied run x)) := by
  rcases List.eq_nil_or_concat run with rfl | ⟨others, s, rfl⟩
  · obtain ⟨noFunction, noConstant⟩ := unnamed_of_plain plain []
    rw [List.append_nil] at noFunction noConstant
    have text : signedText [] (String.ofList ds) = String.ofList ds := by simp [signedText, text]
    rw [text, Grammar.evaluate_of_plain answer plain noFunction noConstant, read]
    rfl
  · -- The last sign is read with the digits, the others stand in front of both.
    have grouped := grouped_numeral plain s
    rw [← String.toList_ofList (l := s.sign :: (s.gap ++ ds))] at grouped
    have text : signedText (others ++ [s]) (String.ofList ds) =
        signedText others (String.ofList (s.sign :: (s.gap ++ ds))) := by
      simp only [signedText, String.toList_ofList, text_append]
    have value : (Tree.lone (.numeral (some s.sign) ds)).evaluate answer =
        pure (.ok (Numeral.signed s.sign x)) := by
      rw [Tree.evaluate, Tree.value_lone, Tree.value]
      exact congrArg pure (behind s.sign s.isSign)
    rw [List.concat_eq_append, text, grouped.evaluate, value, map_pure, applied_append]
    rfl

/-- Signs multiply out, in front of a numeral and in front of a group. -/
theorem multiplies (run : List SpacedSign) : Multiplies run where
  numeral ds plain := by
    obtain ⟨x, read, behind⟩ := Numeral.exists_signed_of_plain plain
    refine ⟨x, read, fun answer => ⟨?_, evaluate_numeral plain read behind answer run⟩⟩
    have alone := evaluate_numeral plain read behind answer []
    simpa [signedText, text, applied, minuses] using alone
  group answer inner s s' x value := by
    obtain ⟨t, left, stands, reads, ended⟩ := Grammar.exists_reads_of_state value
    rw [Grammar.evaluate_of_reads answer stands reads ended] at value
    have same : (Tree.lone (.group t)).evaluate answer = t.evaluate answer := by
      rw [Tree.evaluate, Tree.value_lone, Tree.value, ← Tree.evaluate]
    rw [(grouped_group stands reads ended).evaluate, same, StateT.run_map, value]
    rfl
  even := applied_of_even
  odd odd x number := by
    rw [applied_of_odd odd]
    exact ⟨Number.isNegative_neg number, Number.magnitude_neg number⟩
  nan := by
    rcases Nat.even_or_odd (minuses run) with even | odd
    · exact applied_of_even even _
    · exact applied_of_odd odd _

/-- Three minus signs and a plus in front of zero leave minus zero, with and without
    parentheses. -/
theorem multiplies_in_front_of_zero :
    Grammar.evaluate (m := StateM ℕ) (fun request => pure request.finish) vocabulary "- +\n--0" =
        pure (.ok (-0)) ∧
      (Grammar.evaluate (m := StateM ℕ) (fun request => pure request.finish) vocabulary
        "- +\n--(0)").run 7 = (.ok (-0), 7) ∧ Number.isNegative (-0) = true := by
  let run : List SpacedSign :=
    [⟨'-', [' '], rfl, rfl⟩, ⟨'+', ['\n'], rfl, rfl⟩, ⟨'-', [], rfl, rfl⟩, ⟨'-', [], rfl, rfl⟩]
  obtain ⟨x, read, comes⟩ := (multiplies run).numeral ['0'] (Grammar.plain_of_isDigit (by decide))
  obtain rfl : 0 = x := Except.ok.inj ((by decide +kernel : Numeral.read "0" = .ok 0).symm.trans read)
  have value : applied run 0 = -0 := applied_of_odd (by decide) 0
  rw [value] at comes
  obtain ⟨alone, behind⟩ := comes (m := StateM ℕ) fun request => pure request.finish
  have grouped := (multiplies run).group (fun request => pure request.finish) "0" 7 7 0
    (congrArg (fun result => StateT.run result 7) alone)
  rw [value] at grouped
  exact ⟨behind, grouped, by decide +kernel⟩

end SpacedSign
end Calculator.Standard
