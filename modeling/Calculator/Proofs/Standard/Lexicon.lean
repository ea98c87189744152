import Calculator.Proofs.Vocabulary.Choice
import Calculator.Proofs.Vocabulary.WellFormed

/-!
# The standard names in a text

Exact boundaries of the standard names. Functions begin with small letters and
constants with capital ones; a longer operator goes on behind a shorter one with an
asterisk or a greater sign, with which no operand begins. So the name that was
written is the name that is taken.
-/
namespace Calculator.Standard
open Unread Vocabulary

/-! ## The tables -/

/-- The operators and their tiers, longest name first. -/
def operatorNames : List (String × Tier) :=
  [(">>>", .factor), ("**", .factor), ("<<", .factor), (">>", .factor), ("%", .monomial),
   ("&", .factor), ("*", .monomial), ("+", .polynomial), ("-", .polynomial), ("/", .monomial),
   ("^", .factor), ("|", .factor)]

/-- The functions, longest name first. -/
def functionNames : List String :=
  ["to_degrees", "to_radians", "factorial", "random", "atan2", "floor", "log10", "round", "acos",
   "asin", "atan", "cbrt", "ceil", "sqrt", "abs", "cos", "exp", "log", "max", "min", "pow", "sin",
   "tan"]

/-- The constants, longest name first. -/
def constantNames : List String := ["Infinity", "NaN", "TAU", "PI", "E"]

theorem operators_listed :
    vocabulary.operators.entries.map (fun entry => (entry.1, entry.2.tier)) = operatorNames := by
  decide

theorem functions_listed : vocabulary.functions.names = functionNames := by decide

theorem constants_listed : vocabulary.constants.names = constantNames := by decide

theorem mem_operatorNames {entry : String × Operator}
    (listed : entry ∈ vocabulary.operators.entries) :
    (entry.1, entry.2.tier) ∈ operatorNames :=
  operators_listed ▸ List.mem_map_of_mem (f := fun entry => (entry.1, entry.2.tier)) listed

theorem mem_functionNames {entry : String × Function}
    (listed : entry ∈ vocabulary.functions.entries) : entry.1 ∈ functionNames :=
  functions_listed ▸ List.mem_map_of_mem (f := (·.1)) listed

theorem mem_constantNames {entry : String × Float}
    (listed : entry ∈ vocabulary.constants.entries) : entry.1 ∈ constantNames :=
  constants_listed ▸ List.mem_map_of_mem (f := (·.1)) listed

/-! ## First characters -/

/-- Whether an operator begins with a character. -/
def isOperatorMark (c : Char) : Bool :=
  c ∈ ['>', '*', '<', '%', '&', '+', '-', '/', '^', '|']

theorem operator_head {entry : String × Operator} (listed : entry ∈ vocabulary.operators.entries) :
    entry.1.toList.head?.any isOperatorMark = true := by
  have heads : ∀ known ∈ operatorNames, known.1.toList.head?.any isOperatorMark = true := by decide
  exact heads (entry.1, entry.2.tier) (mem_operatorNames listed)

theorem function_head {entry : String × Function} (listed : entry ∈ vocabulary.functions.entries) :
    entry.1.toList.head?.any Char.isLower = true := by
  have heads : ∀ name ∈ functionNames, name.toList.head?.any Char.isLower = true := by decide
  exact heads _ (mem_functionNames listed)

theorem constant_head {entry : String × Float} (listed : entry ∈ vocabulary.constants.entries) :
    entry.1.toList.head?.any Char.isUpper = true := by
  have heads : ∀ name ∈ constantNames, name.toList.head?.any Char.isUpper = true := by decide
  exact heads _ (mem_constantNames listed)

theorem operatorAt?_of_other {text : List Char}
    (other : (skip text).head?.any isOperatorMark = false) (tier : Tier) :
    vocabulary.operatorAt? tier text = none :=
  first?_eq_none_of_head (fun _ listed => operator_head (mem_operatorsOf_iff.1 listed).1) other

theorem functionAt?_of_other {text : List Char}
    (other : (skip text).head?.any Char.isLower = false) : vocabulary.functionAt? text = none :=
  first?_eq_none_of_head (fun _ listed => function_head listed) other

theorem constantAt?_of_other {text : List Char}
    (other : (skip text).head?.any Char.isUpper = false) : vocabulary.constantAt? text = none :=
  first?_eq_none_of_head (fun _ listed => constant_head listed) other

/-! ## Operators -/

/-- The text does not lengthen an operator in front of it. -/
def EndsOperator (text : List Char) : Prop := ∀ c ∈ text.head?, c ≠ '*' ∧ c ≠ '>'

/-- In front of an operand only a part of the operator that stands there comes next. -/
theorem prefix_of_operator {entry other : String × Operator} {text after left : List Char}
    (listed : entry ∈ vocabulary.operators.entries)
    (others : other ∈ vocabulary.operators.entries)
    (ahead : skip text = entry.1.toList ++ after) (ends : EndsOperator after)
    (accepted : accept? other.1 text = some left) : other.1.toList <+: entry.1.toList := by
  have longer : ∀ known ∈ operatorNames, ∀ more ∈ operatorNames,
      known.1.toList <+: more.1.toList → known.1 ≠ more.1 →
        (more.1.toList.drop known.1.toList.length).head?.any
          (fun c => c = '*' || c = '>') = true := by decide
  have front := prefix_of_accept? accepted
  rw [ahead] at front
  rcases prefix_append_cases front with inside | ⟨c, more, split, next⟩
  · exact inside
  · have differs : entry.1 ≠ other.1 := by
      intro same
      simp [same] at split
    have marked := longer _ (mem_operatorNames listed) _ (mem_operatorNames others)
      ⟨c :: more, split.symm⟩ differs
    rw [split, List.drop_left] at marked
    obtain ⟨noAsterisk, noGreater⟩ := ends c next
    simp [noAsterisk, noGreater] at marked

/-- The operator that stands in front of an operand is taken. -/
theorem operatorAt?_of_operator {tier : Tier} {name : String} {op : Operator}
    {text after : List Char} (listed : (name, op) ∈ vocabulary.operatorsOf tier)
    (ahead : skip text = name.toList ++ after) (ends : EndsOperator after) :
    vocabulary.operatorAt? tier text = some (name, op, skip after) := by
  have known := (mem_operatorsOf_iff.1 listed).1
  have nonempty : name.toList ≠ [] := by
    intro empty
    simpa [empty] using operator_head known
  refine first?_eq_some_of_longest (vocabulary_wellFormed.operatorsOf_sorted tier) listed nonempty
    (accept?_eq_some_iff.2 ⟨after, ahead, rfl⟩) rfl ?_
  intro other others behind accepted _
  have inside := prefix_of_operator known (mem_operatorsOf_iff.1 others).1 ahead ends accepted
  rw [← String.length_toList, ← String.length_toList]
  exact inside.length_le

/-- No operator begins with one of a stronger tier. -/
theorem not_prefix_of_weaker {entry other : String × Operator}
    (listed : entry ∈ vocabulary.operators.entries)
    (others : other ∈ vocabulary.operators.entries)
    (weaker : entry.2.tier.strength < other.2.tier.strength) :
    ¬ other.1.toList <+: entry.1.toList := by
  have apart : ∀ known ∈ operatorNames, ∀ other ∈ operatorNames,
      known.2.strength < other.2.strength → ¬ other.1.toList <+: known.1.toList := by decide
  exact apart _ (mem_operatorNames listed) _ (mem_operatorNames others) weaker

/-- No operator of a stronger tier is taken where an operator stands. -/
theorem operatorAt?_of_weaker {tier stronger : Tier} {name : String} {op : Operator}
    {text after : List Char} (listed : (name, op) ∈ vocabulary.operatorsOf tier)
    (ahead : skip text = name.toList ++ after) (ends : EndsOperator after)
    (weaker : tier.strength < stronger.strength) :
    vocabulary.operatorAt? stronger text = none := by
  rw [Option.eq_none_iff_forall_ne_some]
  rintro ⟨other, operation, left⟩ found
  obtain ⟨others, -, accepted, -⟩ := of_first?_eq_some found
  obtain ⟨known, rfl⟩ := mem_operatorsOf_iff.1 listed
  obtain ⟨known', rfl⟩ := mem_operatorsOf_iff.1 others
  exact not_prefix_of_weaker known known' weaker
    (prefix_of_operator known known' ahead ends accepted)

/-! ## Functions and constants -/

/-- The function whose name stands in front of a parenthesis is taken. -/
theorem functionAt?_of_function {name : String} {f : Function} {text after : List Char}
    (listed : (name, f) ∈ vocabulary.functions.entries)
    (ahead : skip text = name.toList ++ after) (opens : opensParenthesis after = true) :
    vocabulary.functionAt? text = some (name, f, skip after) := by
  have unbroken : ∀ known ∈ functionNames,
      known.toList.all (fun c => !Character.isIgnored c && c ≠ '(') = true := by decide
  have nonempty : name.toList ≠ [] := by
    intro empty
    simpa [empty] using function_head listed
  refine first?_eq_some_of_longest vocabulary_wellFormed.functions.1 listed nonempty
    (accept?_eq_some_iff.2 ⟨after, ahead, rfl⟩) ?_ ?_
  · obtain ⟨opened, begins⟩ := opensParenthesis_iff.1 opens
    exact opensParenthesis_iff.2 ⟨opened, by rw [skip_skip, begins]⟩
  · intro other others behind accepted _
    have front := prefix_of_accept? accepted
    rw [ahead] at front
    rcases prefix_append_cases front with inside | ⟨c, more, split, next⟩
    · rw [← String.length_toList, ← String.length_toList]
      exact inside.length_le
    · -- A longer name would hold the parenthesis or a gap in front of it.
      have letters := unbroken _ (mem_functionNames others)
      rw [split, List.all_append, List.all_cons] at letters
      simp only [Bool.and_eq_true, Bool.not_eq_true', decide_eq_true_eq] at letters
      obtain ⟨-, ⟨kept, unopened⟩, -⟩ := letters
      obtain ⟨opened, begins⟩ := opensParenthesis_iff.1 opens
      obtain ⟨rest, rfl⟩ := List.head?_eq_some_iff.1 next
      rw [skip_cons kept] at begins
      exact absurd (List.cons.inj begins).1 unopened

/-- The constant that stands in a text is taken, whatever follows it. -/
theorem constantAt?_of_constant {name : String} {value : Float} {text after : List Char}
    (listed : (name, value) ∈ vocabulary.constants.entries)
    (ahead : skip text = name.toList ++ after) :
    vocabulary.constantAt? text = some (name, value, skip after) := by
  have distinct : ∀ known ∈ constantNames, ∀ other ∈ constantNames,
      known.toList.head? = other.toList.head? → known = other := by decide
  have head := constant_head listed
  have nonempty : name.toList ≠ [] := by
    intro empty
    simp [empty] at head
  refine first?_eq_some_of_longest vocabulary_wellFormed.constants.1 listed nonempty
    (accept?_eq_some_iff.2 ⟨after, ahead, rfl⟩) rfl ?_
  intro other others behind accepted _
  obtain ⟨rest, same, -⟩ := accept?_eq_some_iff.1 accepted
  have otherNonempty : other.1.toList ≠ [] := by
    intro empty
    simpa [empty] using constant_head others
  have heads : other.1.toList.head? = name.toList.head? := by
    have both := congrArg List.head? (same.symm.trans ahead)
    rwa [List.head?_append_of_ne_nil _ otherNonempty, List.head?_append_of_ne_nil _ nonempty]
      at both
  rw [distinct _ (mem_constantNames others) _ (mem_constantNames listed) heads]

end Calculator.Standard
