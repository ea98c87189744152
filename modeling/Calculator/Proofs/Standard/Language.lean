import Calculator.Proofs.Evaluation.Outcome
import Calculator.Proofs.Standard.Lexicon

/-!
# The standard language

A tree over the standard names is read from every text that spells it, as long as
signs stand in front of names and numerals only: whatever the spaces between its
tokens, the text comes to the value of the tree. What may follow each part of a tree
carries the induction; it ends the part and begins nothing that the part could take.
-/
namespace Calculator
open Unread

mutual

/-- Whether signs stand in front of names and numerals only. -/
def Tree.LeafSigned : Tree → Prop
  | .chain _ first rest => first.LeafSigned ∧ rest.LeafSigned
  | .group inner => inner.LeafSigned
  | .call _ _ _ arguments => arguments.LeafSigned
  | .constant _ _ _ => True
  | .numeral _ _ => True
  | .signed _ _ => False

/-- Whether signs stand in front of names and numerals only. -/
def Links.LeafSigned : Links → Prop
  | .nil => True
  | .cons _ _ right rest => right.LeafSigned ∧ rest.LeafSigned

/-- Whether signs stand in front of names and numerals only. -/
def Arguments.LeafSigned : Arguments → Prop
  | .nil => True
  | .cons first rest => first.LeafSigned ∧ rest.LeafSigned

end

namespace Standard
open Grammar (EndsNumber)
open Vocabulary (mem_operatorsOf_iff)

/-! ## What comes next -/

/-- Whether a name or a numeral begins with a character. -/
def opensLeaf (c : Char) : Bool := Character.isDigit c || c.isLower || c.isUpper

/-- Whether an operand begins with a character. -/
def opensOperand (c : Char) : Bool := opensLeaf c || Character.isSign c || c = '('

/-- What stands behind a part of an expression: no digit goes on with it, and no
    operator that the part could take comes next. -/
def Stops : Level → List Char → Prop
  | .factor, text => EndsNumber (skip text)
  | .chain tier, text => EndsNumber (skip text) ∧
      ∀ other, tier.strength ≤ other.strength → vocabulary.operatorAt? other text = none

theorem Stops.congr {level : Level} {text other : List Char} (stops : Stops level text)
    (same : skip text = skip other) : Stops level other := by
  cases level with
  | factor =>
    rw [Stops, same] at stops
    exact stops
  | chain tier =>
    obtain ⟨ends, none⟩ := stops
    refine ⟨same ▸ ends, fun tier stronger => ?_⟩
    rw [← Grammar.operatorAt?_congr same]
    exact none tier stronger

/-- What stops a chain stops its operands. -/
theorem Stops.operands {tier : Tier} {text : List Char} (stops : Stops (.chain tier) text) :
    Stops tier.operands text := by
  obtain ⟨ends, none⟩ := stops
  cases tier with
  | factor => exact ends
  | monomial => exact ⟨ends, fun tier stronger => none tier (Nat.le_of_succ_le stronger)⟩
  | polynomial => exact ⟨ends, fun tier stronger => none tier (Nat.le_of_succ_le stronger)⟩

/-- Ignored characters end a number as well. -/
theorem endsNumber_of_skip {text : List Char} (ends : EndsNumber (skip text)) :
    EndsNumber text := by
  intro c head
  cases kept : Character.isIgnored c with
  | true => rcases (Character.isIgnored_iff c).1 kept with rfl | rfl <;> decide
  | false =>
    obtain ⟨rest, rfl⟩ := List.head?_eq_some_iff.1 head
    exact ends c (by rw [skip_cons kept]; rfl)

/-- The end of a text, a parenthesis and a comma stop every part. -/
theorem stops_of_end {text : List Char} (other : ∀ c ∈ (skip text).head?, c = ')' ∨ c = ',')
    (level : Level) : Stops level text := by
  have ends : EndsNumber (skip text) := by
    intro c head
    rcases other c head with rfl | rfl <;> decide
  have noMark : (skip text).head?.any isOperatorMark = false := by
    cases head : (skip text).head? with
    | none => rfl
    | some c => rcases other c head with rfl | rfl <;> decide
  cases level with
  | factor => exact ends
  | chain tier => exact ⟨ends, fun other _ => operatorAt?_of_other noMark other⟩

theorem apart_of_opensLeaf {c : Char} (leaf : opensLeaf c = true) :
    Character.isIgnored c = false ∧ Character.isSign c = false ∧ c ≠ '(' := by
  refine ⟨?_, ?_, ?_⟩
  · rw [← Bool.not_eq_true, Character.isIgnored_iff]
    rintro (rfl | rfl) <;> exact absurd leaf (by decide)
  · rw [← Bool.not_eq_true, Character.isSign_iff]
    rintro (rfl | rfl) <;> exact absurd leaf (by decide)
  · rintro rfl
    exact absurd leaf (by decide)

theorem apart_of_opensOperand {c : Char} (operand : opensOperand c = true) :
    c ≠ '*' ∧ c ≠ '>' ∧ c ≠ ')' := by
  refine ⟨?_, ?_, ?_⟩ <;> rintro rfl <;> exact absurd operand (by decide)

theorem apart_of_isOperatorMark {c : Char} (mark : isOperatorMark c = true) :
    Character.isIgnored c = false ∧ Character.isDigit c = false ∧ c ≠ '.' := by
  simp only [isOperatorMark, List.mem_cons, List.not_mem_nil, or_false, decide_eq_true_eq] at mark
  rcases mark with rfl | rfl | rfl | rfl | rfl | rfl | rfl | rfl | rfl | rfl <;> decide

theorem isLower_iff (c : Char) : c.isLower = true ↔ 97 ≤ c.toNat ∧ c.toNat ≤ 122 := by
  simp [Char.isLower, UInt32.le_iff_toNat_le]

theorem isUpper_iff (c : Char) : c.isUpper = true ↔ 65 ≤ c.toNat ∧ c.toNat ≤ 90 := by
  simp [Char.isUpper, UInt32.le_iff_toNat_le]

theorem isDigit_iff (c : Char) : Character.isDigit c = true ↔ 48 ≤ c.toNat ∧ c.toNat ≤ 57 := by
  simp [Character.isDigit, Char.isDigit, UInt32.le_iff_toNat_le]

theorem isLower_of_isUpper {c : Char} (upper : c.isUpper = true) : c.isLower = false := by
  rw [isUpper_iff] at upper
  rw [← Bool.not_eq_true, isLower_iff]
  omega

theorem not_letter_of_isDigit {c : Char} (digit : Character.isDigit c = true) :
    c.isLower = false ∧ c.isUpper = false := by
  rw [isDigit_iff] at digit
  rw [← Bool.not_eq_true, isLower_iff, ← Bool.not_eq_true, isUpper_iff]
  omega

theorem isIgnored_of_isSign {c : Char} (isSign : Character.isSign c = true) :
    Character.isIgnored c = false := by
  rcases (Character.isSign_iff c).1 isSign with rfl | rfl <;> decide

/-- What opens an operand is neither an asterisk nor a greater sign. -/
theorem endsOperator_of_operand {text : List Char}
    (operand : (skip text).head?.any opensOperand = true) : EndsOperator text := by
  intro c head
  cases kept : Character.isIgnored c with
  | true => rcases (Character.isIgnored_iff c).1 kept with rfl | rfl <;> decide
  | false =>
    obtain ⟨rest, rfl⟩ := List.head?_eq_some_iff.1 head
    rw [skip_cons kept] at operand
    obtain ⟨noAsterisk, noGreater, -⟩ := apart_of_opensOperand operand
    exact ⟨noAsterisk, noGreater⟩

/-! ## The first characters of trees -/

theorem skip_of_leaf {token : List Char} (leaf : token.head?.any opensLeaf = true)
    (behind : List Char) : skip (token ++ behind) = token ++ behind := by
  obtain ⟨c, rest, rfl, opens⟩ := exists_cons_of_head leaf
  exact skip_cons (apart_of_opensLeaf opens).1 _

theorem leaf_of_function {name : String} {f : Function}
    (listed : (name, f) ∈ vocabulary.functions.entries) :
    name.toList.head?.any opensLeaf = true := by
  obtain ⟨c, rest, begins, lower⟩ := exists_cons_of_head (function_head listed)
  rw [begins]
  simp [opensLeaf, lower]

theorem leaf_of_constant {name : String} {value : Float}
    (listed : (name, value) ∈ vocabulary.constants.entries) :
    name.toList.head?.any opensLeaf = true := by
  obtain ⟨c, rest, begins, upper⟩ := exists_cons_of_head (constant_head listed)
  rw [begins]
  simp [opensLeaf, upper]

theorem leaf_of_plain {ds : List Char} (plain : IsPlainNumeral ds) :
    ds.head?.any opensLeaf = true := by
  obtain ⟨c, rest, rfl, digit⟩ := Grammar.exists_digit_of_plain plain
  simp [opensLeaf, digit]

/-- No name comes next where a plain numeral stands. -/
theorem unnamed_of_plain {ds : List Char} (plain : IsPlainNumeral ds) (behind : List Char) :
    vocabulary.functionAt? (ds ++ behind) = none ∧ vocabulary.constantAt? (ds ++ behind) = none := by
  have begins := Grammar.skip_of_plain plain behind
  obtain ⟨c, rest, rfl, digit⟩ := Grammar.exists_digit_of_plain plain
  obtain ⟨noLower, noUpper⟩ := not_letter_of_isDigit digit
  exact ⟨functionAt?_of_other (by rw [begins]; exact noLower),
    constantAt?_of_other (by rw [begins]; exact noUpper)⟩

/-- A signed leaf is written from a sign or from the leaf itself. -/
theorem operand_of_signed_leaf {sign : Option Char} (optional : IsOptionalSign sign)
    {token : List Char} (leaf : token.head?.any opensLeaf = true) {tokens : List (List Char)}
    {text left : List Char} (writes : Writes (sign.toList.map ([·]) ++ token :: tokens) text left) :
    (skip text).head?.any opensOperand = true := by
  cases sign with
  | none =>
    obtain ⟨behind, ahead, -⟩ := writes.of_cons
    rw [ahead, skip_of_leaf leaf]
    obtain ⟨c, rest, rfl, opens⟩ := exists_cons_of_head leaf
    simp [opensOperand, opens]
  | some s =>
    have isSign := optional s rfl
    obtain ⟨behind, ahead, -⟩ := Writes.of_mark (isIgnored_of_isSign isSign) writes
    rw [ahead]
    simp [opensOperand, isSign]

/-- A tree is written from a character that opens an operand. -/
theorem operand_of_writes (t : Tree) {level : Level} (stands : t.Over vocabulary level)
    {text left : List Char} (writes : Writes t.tokens text left) :
    (skip text).head?.any opensOperand = true := by
  match t with
  | .chain _ first rest =>
    obtain ⟨between, firstWrites, -⟩ := Writes.of_append writes
    exact operand_of_writes first stands.2.1 firstWrites
  | .group inner =>
    obtain ⟨opened, ahead, -⟩ := Writes.of_mark (by decide) writes
    rw [ahead]
    rfl
  | .call sign name f arguments =>
    obtain ⟨-, optional, listed, -⟩ := stands
    exact operand_of_signed_leaf optional (leaf_of_function listed) writes
  | .constant sign name value =>
    obtain ⟨-, optional, listed⟩ := stands
    exact operand_of_signed_leaf optional (leaf_of_constant listed) writes
  | .numeral sign ds =>
    obtain ⟨-, optional, plain⟩ := stands
    exact operand_of_signed_leaf optional (leaf_of_plain plain) writes
  | .signed sign inner =>
    obtain ⟨-, isSign, -⟩ := stands
    obtain ⟨behind, ahead, -⟩ := Writes.of_mark (isIgnored_of_isSign isSign) writes
    rw [ahead]
    simp [opensOperand, isSign]

/-! ## What stands behind the parts of a tree -/

theorem skip_of_operator {entry : String × Operator}
    (listed : entry ∈ vocabulary.operators.entries) (behind : List Char) :
    skip (entry.1.toList ++ behind) = entry.1.toList ++ behind := by
  obtain ⟨c, rest, begins, mark⟩ := exists_cons_of_head (operator_head listed)
  rw [begins]
  exact skip_cons (apart_of_isOperatorMark mark).1 _

/-- An operator ends a number. -/
theorem endsNumber_of_operator {entry : String × Operator}
    (listed : entry ∈ vocabulary.operators.entries) (behind : List Char) :
    EndsNumber (entry.1.toList ++ behind) := by
  obtain ⟨c, rest, begins, mark⟩ := exists_cons_of_head (operator_head listed)
  rw [begins]
  rintro d ⟨⟩
  exact (apart_of_isOperatorMark mark).2

/-- The operators of a tier and what stops the tier stop an operand in front of them. -/
theorem stops_of_links {tier : Tier} (links : Links) (stands : links.Over vocabulary tier)
    {text after : List Char} (writes : Writes links.tokens text after)
    (stops : Stops (.chain tier) after) : Stops tier.operands text := by
  cases links with
  | nil => exact (stops.congr (Writes.of_nil writes).symm).operands
  | cons name op right rest =>
    obtain ⟨listed, rightOver, -⟩ := stands
    obtain ⟨behind, ahead, others⟩ := Writes.of_cons writes
    obtain ⟨between, rightWrites, -⟩ := Writes.of_append others
    have known := (mem_operatorsOf_iff.1 listed).1
    rw [skip_of_operator known] at ahead
    have ends := endsNumber_of_operator known behind
    rw [← ahead] at ends
    have opens := endsOperator_of_operand (operand_of_writes right rightOver rightWrites)
    have stronger : ∀ other : Tier, tier.strength < other.strength →
        vocabulary.operatorAt? other text = none :=
      fun other weaker => operatorAt?_of_weaker listed ahead opens weaker
    cases tier with
    | factor => exact ends
    | monomial => exact ⟨ends, fun other le => stronger other le⟩
    | polynomial => exact ⟨ends, fun other le => stronger other le⟩

theorem stops_of_close {text after : List Char} (writes : Writes [[')']] text after)
    (level : Level) : Stops level text := by
  obtain ⟨behind, ahead, -⟩ := Writes.of_mark (by decide) writes
  refine stops_of_end ?_ level
  rintro c head
  rw [ahead] at head
  cases head
  exact .inl rfl

theorem stops_of_further (others : Arguments) {text after : List Char}
    (writes : Writes (others.further ++ [[')']]) text after) (level : Level) :
    Stops level text := by
  cases others with
  | nil => exact stops_of_close writes level
  | cons first rest =>
    obtain ⟨behind, ahead, -⟩ := Writes.of_mark (by decide) writes
    refine stops_of_end ?_ level
    rintro c head
    rw [ahead] at head
    cases head
    exact .inr rfl

/-- Behind its sign a leaf is where the rule of numbers looks for it. -/
theorem signed_of_writes {sign : Option Char} (optional : IsOptionalSign sign)
    {written named text : List Char} (writes : Writes (sign.toList.map ([·])) written named)
    (leaf : (skip named).head?.any opensLeaf = true) (same : skip text = skip written) :
    Signed sign text (skip named) := by
  cases sign with
  | none =>
    have ahead := same.trans (Writes.of_nil writes)
    obtain ⟨c, rest, begins, opens⟩ := exists_cons_of_head leaf
    obtain ⟨-, unsigned, unopened⟩ := apart_of_opensLeaf opens
    exact ⟨ahead.symm, c, rest, ahead.trans begins, unopened, unsigned⟩
  | some s =>
    have isSign := optional s rfl
    obtain ⟨behind, ahead, others⟩ := Writes.of_mark (isIgnored_of_isSign isSign) writes
    exact ⟨isSign, behind, same.trans ahead, (Writes.of_nil others).symm⟩

/-! ## What is written is read -/

theorem reads_of_call {sign : Option Char} {name : String} {f : Function} {arguments : Arguments}
    {written after text : List Char} (optional : IsOptionalSign sign)
    (listed : (name, f) ∈ vocabulary.functions.entries)
    (writes : Writes (Tree.call sign name f arguments).tokens written after)
    (same : skip text = skip written)
    (inner : ∀ opened, Writes (arguments.tokens ++ [[')']]) opened after →
      ∃ left, arguments.Reads vocabulary opened left ∧ skip left = skip after) :
    ∃ left, (Tree.call sign name f arguments).Reads vocabulary text left ∧
      skip left = skip after := by
  have leaf := leaf_of_function listed
  obtain ⟨named, signs, others⟩ := Writes.of_append writes
  obtain ⟨behind, ahead, call⟩ := others.of_cons
  obtain ⟨opened, parenthesis, argumentsWrites⟩ := Writes.of_mark (by decide) call
  rw [skip_of_leaf leaf] at ahead
  obtain ⟨left, argumentsReads, reached⟩ := inner opened argumentsWrites
  have opensName : (skip named).head?.any opensLeaf = true := by
    obtain ⟨c, rest, begins, opens⟩ := exists_cons_of_head leaf
    rw [ahead, begins]
    exact opens
  refine ⟨left, ⟨skip named, skip behind, opened, signed_of_writes optional signs opensName same,
    functionAt?_of_function listed ((skip_skip _).trans ahead)
      (opensParenthesis_iff.2 ⟨opened, parenthesis⟩),
    (skip_skip _).trans parenthesis, argumentsReads⟩, reached⟩

theorem reads_of_constant {sign : Option Char} {name : String} {value : Float}
    {written after text : List Char} (optional : IsOptionalSign sign)
    (listed : (name, value) ∈ vocabulary.constants.entries)
    (writes : Writes (Tree.constant sign name value).tokens written after)
    (same : skip text = skip written) :
    ∃ left, (Tree.constant sign name value).Reads vocabulary text left ∧
      skip left = skip after := by
  have leaf := leaf_of_constant listed
  obtain ⟨named, signs, others⟩ := Writes.of_append writes
  obtain ⟨behind, ahead, last⟩ := others.of_cons
  rw [skip_of_leaf leaf] at ahead
  obtain ⟨c, rest, begins, upper⟩ := exists_cons_of_head (constant_head listed)
  have opensName : (skip named).head?.any opensLeaf = true := by
    rw [ahead, begins]
    simp [opensLeaf, upper]
  have noFunction : vocabulary.functionAt? (skip named) = none := by
    refine functionAt?_of_other ?_
    rw [skip_skip, ahead, begins]
    exact isLower_of_isUpper upper
  refine ⟨skip behind, ⟨skip named, signed_of_writes optional signs opensName same, noFunction,
    constantAt?_of_constant listed ((skip_skip _).trans ahead)⟩, ?_⟩
  rw [skip_skip, Writes.of_nil last]

theorem reads_of_numeral {sign : Option Char} {ds written after text : List Char}
    (optional : IsOptionalSign sign) (plain : IsPlainNumeral ds)
    (writes : Writes (Tree.numeral sign ds).tokens written after)
    (ends : EndsNumber (skip after)) (same : skip text = skip written) :
    ∃ left, (Tree.numeral sign ds).Reads vocabulary text left ∧ skip left = skip after := by
  obtain ⟨named, signs, others⟩ := Writes.of_append writes
  obtain ⟨behind, ahead, last⟩ := others.of_cons
  rw [Grammar.skip_of_plain plain] at ahead
  obtain ⟨c, rest, begins, digit⟩ := Grammar.exists_digit_of_plain plain
  have opensName : (skip named).head?.any opensLeaf = true := by
    rw [ahead, begins]
    simp [opensLeaf, digit]
  obtain ⟨noFunction, noConstant⟩ := unnamed_of_plain plain behind
  rw [← ahead] at noFunction noConstant
  refine ⟨behind, ⟨skip named, signed_of_writes optional signs opensName same, noFunction,
    noConstant, ahead, ?_⟩, Writes.of_nil last⟩
  rw [← Writes.of_nil last] at ends
  exact endsNumber_of_skip ends

mutual

/-- A tree is read where it is written, up to what stops its level. -/
theorem reads_of_writes (t : Tree) {level : Level} {written after text : List Char}
    (stands : t.Over vocabulary level) (signs : t.LeafSigned)
    (writes : Writes t.tokens written after) (stops : Stops level after)
    (same : skip text = skip written) :
    ∃ left, t.Reads vocabulary text left ∧ skip left = skip after := by
  match t with
  | .chain tier first rest =>
    obtain ⟨rfl, firstOver, restOver⟩ := stands
    obtain ⟨middle, firstWrites, restWrites⟩ := Writes.of_append writes
    obtain ⟨between, firstReads, reached⟩ := reads_of_writes first firstOver signs.1 firstWrites
      (stops_of_links rest restOver restWrites stops) same
    obtain ⟨left, restReads, ended⟩ :=
      links_of_writes rest restOver signs.2 restWrites stops reached
    exact ⟨left, ⟨between, firstReads, restReads⟩, ended⟩
  | .group inner =>
    obtain ⟨rfl, innerOver⟩ := stands
    obtain ⟨opened, ahead, others⟩ := Writes.of_mark (by decide) writes
    obtain ⟨middle, innerWrites, closeWrites⟩ := Writes.of_append others
    obtain ⟨closed, innerReads, reached⟩ := reads_of_writes inner innerOver signs innerWrites
      (stops_of_close closeWrites _) (show skip opened = skip opened from rfl)
    obtain ⟨behind, close, last⟩ := Writes.of_mark (by decide) closeWrites
    exact ⟨behind, ⟨opened, closed, same.trans ahead, innerReads, reached.trans close⟩,
      Writes.of_nil last⟩
  | .call sign name f arguments =>
    obtain ⟨rfl, optional, listed, argumentsOver⟩ := stands
    exact reads_of_call optional listed writes same fun opened argumentsWrites =>
      arguments_of_writes arguments argumentsOver signs argumentsWrites
  | .constant sign name value =>
    obtain ⟨rfl, optional, listed⟩ := stands
    exact reads_of_constant optional listed writes same
  | .numeral sign ds =>
    obtain ⟨rfl, optional, plain⟩ := stands
    exact reads_of_numeral optional plain writes stops same
  | .signed sign inner => exact signs.elim

theorem links_of_writes (links : Links) {tier : Tier} {written after text : List Char}
    (stands : links.Over vocabulary tier) (signs : links.LeafSigned)
    (writes : Writes links.tokens written after) (stops : Stops (.chain tier) after)
    (same : skip text = skip written) :
    ∃ left, links.Reads vocabulary tier text left ∧ skip left = skip after := by
  match links with
  | .nil =>
    have ended := same.trans (Writes.of_nil writes)
    refine ⟨text, ⟨?_, rfl⟩, ended⟩
    rw [Grammar.operatorAt?_congr ended]
    exact stops.2 tier le_rfl
  | .cons name op right rest =>
    obtain ⟨listed, rightOver, restOver⟩ := stands
    obtain ⟨behind, ahead, others⟩ := Writes.of_cons writes
    obtain ⟨middle, rightWrites, restWrites⟩ := Writes.of_append others
    rw [skip_of_operator (mem_operatorsOf_iff.1 listed).1] at ahead
    have opens := endsOperator_of_operand (operand_of_writes right rightOver rightWrites)
    have found := operatorAt?_of_operator listed (same.trans ahead) opens
    obtain ⟨between, rightReads, reached⟩ := reads_of_writes right rightOver signs.1 rightWrites
      (stops_of_links rest restOver restWrites stops) (skip_skip behind)
    obtain ⟨left, restReads, ended⟩ :=
      links_of_writes rest restOver signs.2 restWrites stops reached
    exact ⟨left, ⟨skip behind, between, found, rightReads, restReads⟩, ended⟩

theorem arguments_of_writes (arguments : Arguments) {opened after : List Char}
    (stands : arguments.Over vocabulary) (signs : arguments.LeafSigned)
    (writes : Writes (arguments.tokens ++ [[')']]) opened after) :
    ∃ left, arguments.Reads vocabulary opened left ∧ skip left = skip after := by
  match arguments with
  | .nil =>
    obtain ⟨behind, close, last⟩ := Writes.of_mark (by decide) writes
    exact ⟨behind, close, Writes.of_nil last⟩
  | .cons first rest =>
    rw [Arguments.tokens_cons, List.append_assoc] at writes
    obtain ⟨middle, firstWrites, restWrites⟩ := Writes.of_append writes
    obtain ⟨between, firstReads, reached⟩ := reads_of_writes first stands.1 signs.1 firstWrites
      (stops_of_further rest restWrites _) (show skip opened = skip opened from rfl)
    obtain ⟨left, restReads, ended⟩ :=
      further_of_writes rest stands.2 signs.2 restWrites reached
    refine ⟨left, ⟨fun behind close => ?_, between, firstReads, restReads⟩, ended⟩
    have operand := operand_of_writes first stands.1 firstWrites
    rw [close] at operand
    exact (apart_of_opensOperand operand).2.2 rfl

theorem further_of_writes (others : Arguments) {written after text : List Char}
    (stands : others.Over vocabulary) (signs : others.LeafSigned)
    (writes : Writes (others.further ++ [[')']]) written after) (same : skip text = skip written) :
    ∃ left, others.Continue vocabulary text left ∧ skip left = skip after := by
  match others with
  | .nil =>
    obtain ⟨behind, close, last⟩ := Writes.of_mark (by decide) writes
    exact ⟨behind, same.trans close, Writes.of_nil last⟩
  | .cons first rest =>
    rw [Arguments.further, Arguments.tokens_cons, List.cons_append, List.append_assoc] at writes
    obtain ⟨behind, comma, writes⟩ := Writes.of_mark (by decide) writes
    obtain ⟨middle, firstWrites, restWrites⟩ := Writes.of_append writes
    obtain ⟨between, firstReads, reached⟩ := reads_of_writes first stands.1 signs.1 firstWrites
      (stops_of_further rest restWrites _) (show skip behind = skip behind from rfl)
    obtain ⟨left, restReads, ended⟩ :=
      further_of_writes rest stands.2 signs.2 restWrites reached
    exact ⟨left, ⟨behind, between, same.trans comma, firstReads, restReads⟩, ended⟩

end

/-- Whoever answers, a text that spells a tree over the standard names comes to the
    value of the tree, if signs stand in front of names and numerals only. -/
theorem evaluate_of_spells {m : Type → Type} [Monad m] [LawfulMonad m]
    (answer : Call → m CallResult) {t : Tree} {text : String} (spells : t.Spells vocabulary text)
    (signs : t.LeafSigned) : Grammar.evaluate answer vocabulary text = t.evaluate answer := by
  obtain ⟨stands, spaced⟩ := spells
  have writes : Writes t.tokens text.toList [] := ⟨text.toList, by rw [List.append_nil], spaced⟩
  have stops : Stops (.chain .polynomial) [] := stops_of_end (by simp) _
  obtain ⟨left, reads, ended⟩ := reads_of_writes t stands signs writes stops rfl
  exact Grammar.evaluate_of_reads answer stands reads ended

/-- Seven shifted by one place, and the product of that with a negative number. -/
theorem evaluate_shifted_product :
    ∃ t : Tree, (t.Spells vocabulary " 7>>1 *\n- 3" ∧ t.LeafSigned) ∧
      t.evaluate (m := Id) Call.finish = .ok (-9) ∧
        Grammar.evaluate (m := Id) Call.finish vocabulary " 7>>1 *\n- 3" = .ok (-9) := by
  let shift : Operator := wordOperator ">>" Number.Word.shiftRight
  let times : Operator := valueOperator .monomial (· * ·)
  let shifted : Tree := .chain .factor (.numeral none ['7']) (.cons ">>" shift (.numeral none ['1']) .nil)
  let t : Tree := .chain .polynomial (.chain .monomial shifted
    (.cons "*" times (.chain .factor (.numeral (some '-') ['3']) .nil) .nil)) .nil
  have shiftListed : (">>", shift) ∈ vocabulary.operatorsOf .factor :=
    List.mem_iff_getElem?.2 ⟨3, rfl⟩
  have timesListed : ("*", times) ∈ vocabulary.operatorsOf .monomial :=
    List.mem_iff_getElem?.2 ⟨1, rfl⟩
  have seven : Tree.Over vocabulary (.numeral none ['7']) .factor :=
    ⟨rfl, nofun, Grammar.plain_of_isDigit (by decide)⟩
  have one : Tree.Over vocabulary (.numeral none ['1']) .factor :=
    ⟨rfl, nofun, Grammar.plain_of_isDigit (by decide)⟩
  have three : Tree.Over vocabulary (.numeral (some '-') ['3']) .factor := by
    refine ⟨rfl, ?_, Grammar.plain_of_isDigit (by decide)⟩
    rintro c ⟨⟩
    decide
  have stands : t.Over vocabulary (.chain .polynomial) :=
    ⟨rfl, ⟨rfl, ⟨rfl, seven, shiftListed, one, trivial⟩, timesListed, ⟨rfl, three, trivial⟩, trivial⟩,
      trivial⟩
  have spaced : Spaced t.tokens " 7>>1 *\n- 3".toList :=
    @Spaced.cons [' '] ['7'] _ _ rfl (@Spaced.cons [] ['>', '>'] _ _ rfl
      (@Spaced.cons [] ['1'] _ _ rfl (@Spaced.cons [' '] ['*'] _ _ rfl
        (@Spaced.cons ['\n'] ['-'] _ _ rfl (@Spaced.cons [' '] ['3'] _ _ rfl
          (.nil rfl))))))
  have signs : t.LeafSigned := ⟨⟨⟨trivial, trivial, trivial⟩, ⟨trivial, trivial⟩, trivial⟩, trivial⟩
  have value : (show EvaluationResult from t.evaluate (m := Id) Call.finish) = .ok (-9) := by
    decide +kernel
  exact ⟨t, ⟨⟨stands, spaced⟩, signs⟩, value,
    (evaluate_of_spells (m := Id) Call.finish ⟨stands, spaced⟩ signs).trans value⟩

end Standard

end Calculator
