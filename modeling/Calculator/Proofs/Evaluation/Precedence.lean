import Calculator.Proofs.Evaluation.InPlace
import Calculator.Proofs.Evaluation.Order
import Calculator.Proofs.Vocabulary.Lookup

/-!
# Precedence by tier

Groups with declared operators between them, in any order of tiers and of any length.
Their value is that of the flat list, reduced tier by tier: all factor operators from
the left, then all monomial ones, then all polynomial ones. The operators are applied in
the order in which their operands are complete, and the first that fails is reported.
-/
namespace Calculator
open Unread

/-- An operator and the operand behind it. -/
structure Join (α : Type) where
  name : String
  op : Operator
  operand : α

namespace Join

variable {α β : Type}

/-- The same operator in front of another operand. -/
def map (f : α → β) (j : Join α) : Join β := ⟨j.name, j.op, f j.operand⟩

/-- Exact text of operators and the groups behind them. -/
def texts : List (Join String) → String
  | [] => ""
  | j :: rest => j.name ++ "(" ++ j.operand ++ ")" ++ texts rest

/-- Exact text of groups with operators between them. -/
def text (first : String) (joins : List (Join String)) : String :=
  "(" ++ first ++ ")" ++ texts joins

/-! ## The reduction of a flat list -/

variable (answers : Call → CallResult)

/-- An operator between two outcomes. A failed operand is passed on, the left one
    first; a failure of the operator is one of the evaluation. -/
def apply (x : EvaluationResult) (j : Join EvaluationResult) : EvaluationResult :=
  match x, j.operand with
  | .error e, _ => .error e
  | .ok _, .error e => .error e
  | .ok x, .ok y =>
    match answers (.operator j.name j.op x y) with
    | .error cause => .error (.operatorFailed j.op.tier j.name cause)
    | .ok z => .ok z

/-- Applies all operators of a tier, from the left; the others stay in the list. -/
def pass (tier : Tier) (x : EvaluationResult) :
    List (Join EvaluationResult) → EvaluationResult × List (Join EvaluationResult)
  | [] => (x, [])
  | j :: rest =>
    if j.op.tier = tier then pass tier (apply answers x j) rest
    else
      let passed := pass tier j.operand rest
      (x, { j with operand := passed.1 } :: passed.2)

/-- Applies all operators of a flat list: first those between factors, then those
    between monomials, then those between polynomials. -/
def reduce (x : EvaluationResult) (joins : List (Join EvaluationResult)) : EvaluationResult :=
  let factors := pass answers .factor x joins
  let monomials := pass answers .monomial factors.1 factors.2
  (pass answers .polynomial monomials.1 monomials.2).1

/-- A single operator is applied, whatever its tier. -/
theorem reduce_singleton (x : EvaluationResult) (j : Join EvaluationResult) :
    reduce answers x [j] = apply answers x j := by
  cases tier : j.op.tier <;> simp [reduce, pass, tier]

end Join

/-! ## Runs of trees -/

section

variable (answers : Call → CallResult)

theorem Interaction.run_onward {α β : Type} (p : Interaction (Except EvaluationError α))
    (next : α → Interaction (Except EvaluationError β)) :
    ((p.onward next).run (m := Id) fun request _ => answers request) =
      match p.run (m := Id) fun request _ => answers request with
      | .error e => .error e
      | .ok x => (next x).run (m := Id) fun request _ => answers request := by
  induction p with
  | done result => cases result <;> rfl
  | call request site resume ih => exact ih _

theorem Interaction.run_ask {α : Type} (request : Call)
    (next : Float → Interaction (Except EvaluationError α)) :
    ((Interaction.ask request next).run (m := Id) fun request _ => answers request) =
      match answers request with
      | .error e => .error (request.failure e)
      | .ok x => (next x).run (m := Id) fun request _ => answers request := by
  show Interaction.run (m := Id) _ (match answers request with
    | .error e => _
    | .ok x => _) = _
  cases answers request <;> rfl

/-- An outcome joined with the right operands of operators. -/
def Links.join (x : EvaluationResult) (links : Links) : EvaluationResult :=
  match x with
  | .error e => .error e
  | .ok x => (links.value x).run (m := Id) fun request _ => answers request

theorem Tree.evaluate_chain (tier : Tier) (first : Tree) (rest : Links) :
    (Tree.chain tier first rest).evaluate (m := Id) answers =
      rest.join answers (first.evaluate (m := Id) answers) := by
  rw [Tree.evaluate, Tree.value, Interaction.run_onward, ← Tree.evaluate]
  cases first.evaluate (m := Id) answers <;> rfl

theorem Links.join_nil (x : EvaluationResult) : Links.join answers x .nil = x := by
  cases x <;> rfl

theorem Links.join_cons (x : EvaluationResult) (name : String) (op : Operator) (right : Tree)
    (rest : Links) :
    Links.join answers x (.cons name op right rest) =
      rest.join answers (Join.apply answers x ⟨name, op, right.evaluate (m := Id) answers⟩) := by
  cases x with
  | error e => rfl
  | ok x =>
    show Interaction.run (m := Id) _ (right.value.onward _) = _
    rw [Interaction.run_onward, ← Tree.evaluate]
    generalize right.evaluate (m := Id) answers = result
    cases result with
    | error e => rfl
    | ok y =>
      dsimp only [Join.apply]
      rw [Interaction.run_ask]
      cases answers (.operator name op x y) <;> rfl

end

/-! ## Chains of a flat list -/

namespace Join

/-- The operators of a tier in front of all others with their right operands, and
    the others; an operand of these is a chain of the tier. -/
def collect (tier : Tier) : List (Join Tree) → Links × List (Join Tree)
  | [] => (.nil, [])
  | j :: rest =>
    let collected := collect tier rest
    if j.op.tier = tier then (.cons j.name j.op j.operand collected.1, collected.2)
    else (.nil, { j with operand := .chain tier j.operand collected.1 } :: collected.2)

/-- The values of operands. -/
def values (answers : Call → CallResult) (joins : List (Join Tree)) :
    List (Join EvaluationResult) :=
  joins.map (map (Tree.evaluate (m := Id) answers))

/-- A pass over the values of trees gives the values of their chains. -/
theorem pass_evaluate (answers : Call → CallResult) (tier : Tier) (x : EvaluationResult)
    (joins : List (Join Tree)) :
    pass answers tier x (values answers joins) =
      ((collect tier joins).1.join answers x, values answers (collect tier joins).2) := by
  induction joins generalizing x with
  | nil =>
    rw [collect, Links.join_nil]
    rfl
  | cons j rest ih =>
    rw [values, List.map_cons, ← values, pass, collect]
    by_cases same : j.op.tier = tier
    · have here : (j.map (Tree.evaluate (m := Id) answers)).op.tier = tier := same
      rw [if_pos here, if_pos same, ih, Links.join_cons]
      rfl
    · have here : ¬ (j.map (Tree.evaluate (m := Id) answers)).op.tier = tier := same
      rw [if_neg here, if_neg same, ih, Links.join_nil, values, values, List.map_cons, map, map,
        Tree.evaluate_chain]

/-- Declared operators of tiers up to a bound, with operands that stand at a level. -/
def Stand (v : Vocabulary) (level : Level) (bound : Nat) (joins : List (Join Tree)) : Prop :=
  ∀ j ∈ joins, (j.name, j.op) ∈ v.operators.entries ∧ j.op.tier.strength < bound ∧
    j.operand.Over v level

/-- Whether operators and their operands are read, each operator as one of its tier
    and of no stronger one, up to a text that goes on with no operator. -/
def Read (v : Vocabulary) : List (Join Tree) → List Char → List Char → Prop
  | [], text, left => (∀ tier, v.operatorAt? tier text = none) ∧ left = text
  | j :: rest, text, left =>
    ∃ behind between, v.operatorAt? j.op.tier text = some (j.name, j.op, behind) ∧
      (∀ tier : Tier, j.op.tier.strength < tier.strength → v.operatorAt? tier text = none) ∧
      j.operand.Reads v behind between ∧ Read v rest between left

/-- Collecting the strongest tier leaves chains of it and weaker operators. -/
theorem collect_stand {v : Vocabulary} (tier : Tier) {joins : List (Join Tree)}
    (stand : Stand v tier.operands (tier.strength + 1) joins) :
    (collect tier joins).1.Over v tier ∧
      Stand v (.chain tier) tier.strength (collect tier joins).2 := by
  induction joins with
  | nil => exact ⟨trivial, nofun⟩
  | cons j rest ih =>
    obtain ⟨listed, below, operandOver⟩ := stand j List.mem_cons_self
    obtain ⟨linksOver, others⟩ := ih fun k behind => stand k (List.mem_cons_of_mem _ behind)
    rw [collect]
    by_cases same : j.op.tier = tier
    · rw [if_pos same]
      exact ⟨⟨Vocabulary.mem_operatorsOf_iff.2 ⟨listed, same⟩, operandOver, linksOver⟩, others⟩
    · rw [if_neg same]
      refine ⟨trivial, fun k behind => ?_⟩
      rcases List.mem_cons.1 behind with rfl | behind
      · have differs : j.op.tier.strength ≠ tier.strength := fun h => same (Tier.eq_of_strength h)
        exact ⟨listed, Nat.lt_of_le_of_ne (Nat.le_of_lt_succ below) differs,
          rfl, operandOver, linksOver⟩
      · exact others k behind

/-- The links that are collected are read first, and the others behind them. -/
theorem collect_read {v : Vocabulary} (tier : Tier) {level : Level} {joins : List (Join Tree)}
    {text left : List Char} (stand : Stand v level (tier.strength + 1) joins)
    (read : Read v joins text left) :
    ∃ between, (collect tier joins).1.Reads v tier text between ∧
      Read v (collect tier joins).2 between left := by
  induction joins generalizing text with
  | nil =>
    obtain ⟨none, rfl⟩ := read
    exact ⟨left, ⟨none tier, rfl⟩, none, rfl⟩
  | cons j rest ih =>
    obtain ⟨-, below, -⟩ := stand j List.mem_cons_self
    obtain ⟨behind, between, found, stronger, operandReads, restRead⟩ := read
    obtain ⟨last, linksRead, othersRead⟩ :=
      ih (fun k behind => stand k (List.mem_cons_of_mem _ behind)) restRead
    rw [collect]
    by_cases same : j.op.tier = tier
    · rw [if_pos same]
      rw [same] at found
      exact ⟨last, ⟨behind, between, found, operandReads, linksRead⟩, othersRead⟩
    · rw [if_neg same]
      have differs : j.op.tier.strength ≠ tier.strength := fun h => same (Tier.eq_of_strength h)
      have weaker := Nat.lt_of_le_of_ne (Nat.le_of_lt_succ below) differs
      exact ⟨text, ⟨stronger tier weaker, rfl⟩, behind, last, found, stronger,
        ⟨between, operandReads, linksRead⟩, othersRead⟩

/-- Factors with operators between them are read as one polynomial, whose value is
    that of the flat list. -/
theorem exists_polynomial {v : Vocabulary} (answers : Call → CallResult) {first : Tree}
    {joins : List (Join Tree)} {text between left : List Char} (firstOver : first.Over v .factor)
    (stand : Stand v .factor 3 joins) (firstReads : first.Reads v text between)
    (read : Read v joins between left) :
    ∃ t : Tree, t.Over v (.chain .polynomial) ∧ t.Reads v text left ∧
      t.evaluate (m := Id) answers =
        reduce answers (first.evaluate (m := Id) answers) (values answers joins) := by
  obtain ⟨factorsOver, factorsStand⟩ := collect_stand .factor stand
  obtain ⟨_, factorsReads, others⟩ := collect_read .factor stand read
  obtain ⟨monomialsOver, monomialsStand⟩ := collect_stand .monomial factorsStand
  obtain ⟨_, monomialsReads, others⟩ := collect_read .monomial factorsStand others
  obtain ⟨polynomialsOver, polynomialsStand⟩ := collect_stand .polynomial monomialsStand
  obtain ⟨_, polynomialsReads, others⟩ := collect_read .polynomial monomialsStand others
  -- No operator is weaker than those between polynomials.
  have none : (collect .polynomial (collect .monomial (collect .factor joins).2).2).2 = [] := by
    rw [List.eq_nil_iff_forall_not_mem]
    intro j listed
    exact Nat.not_lt_zero _ (polynomialsStand j listed).2.1
  rw [none] at others
  obtain ⟨-, rfl⟩ := others
  refine ⟨.chain .polynomial (.chain .monomial (.chain .factor first (collect .factor joins).1)
      (collect .monomial (collect .factor joins).2).1)
      (collect .polynomial (collect .monomial (collect .factor joins).2).2).1,
    ⟨rfl, ⟨rfl, ⟨rfl, firstOver, factorsOver⟩, monomialsOver⟩, polynomialsOver⟩,
    ⟨_, ⟨_, ⟨_, firstReads, factorsReads⟩, monomialsReads⟩, polynomialsReads⟩, ?_⟩
  rw [reduce, pass_evaluate, pass_evaluate, pass_evaluate, Tree.evaluate_chain,
    Tree.evaluate_chain, Tree.evaluate_chain]

/-! ## Groups with operators between them -/

/-- What an operator needs to be taken by its name: it is declared, its name is not
    skipped, and no name of a stronger tier is taken instead. -/
structure Fits {α : Type} (v : Vocabulary) (j : Join α) : Prop where
  declared : (j.name, j.op) ∈ v.operators.entries
  visible : ∀ c ∈ j.name.toList.head?, Character.isIgnored c = false
  unshadowed : ∀ other ∈ v.operators.entries, j.op.tier.strength < other.2.tier.strength →
    ¬ other.1.toList <+: j.name.toList

variable {v : Vocabulary}

/-- A name that comes next in front of a group is a part of the name there. -/
theorem prefix_of_accept_group {α : Type} {table : Table α} {other : String × α} {name : String}
    {text left behind : List Char} (wellFormed : table.WellFormed)
    (listed : other ∈ table.entries) (ahead : skip text = name.toList ++ '(' :: behind)
    (accepted : accept? other.1 text = some left) : other.1.toList <+: name.toList := by
  have front := prefix_of_accept? accepted
  rw [ahead] at front
  rcases prefix_append_cases front with inside | ⟨c, more, split, next⟩
  · exact inside
  · cases next
    have inside : '(' ∈ other.1.toList := by simp [split]
    exact absurd inside (wellFormed.free (by decide) other listed)

/-- A declared name that does not begin with an ignored character stands where it is. -/
theorem skip_of_visible {name : String} (declarable : Table.Declarable name)
    (visible : ∀ c ∈ name.toList.head?, Character.isIgnored c = false) (behind : List Char) :
    name.toList ≠ [] ∧ skip (name.toList ++ behind) = name.toList ++ behind := by
  have nonempty : name.toList ≠ [] := by simpa using declarable.1
  refine ⟨nonempty, ?_⟩
  obtain ⟨c, rest, begins⟩ := List.exists_cons_of_ne_nil nonempty
  rw [begins]
  exact skip_cons (visible c (by rw [begins]; rfl)) _

/-- In front of a group an operator is taken by its tier and by no stronger one. -/
theorem Fits.operatorAt? (wellFormed : v.WellFormed) {α : Type} {j : Join α} (fits : Fits v j)
    (behind : List Char) :
    v.operatorAt? j.op.tier (j.name.toList ++ '(' :: behind) =
        some (j.name, j.op, '(' :: behind) ∧
      ∀ tier : Tier, j.op.tier.strength < tier.strength →
        v.operatorAt? tier (j.name.toList ++ '(' :: behind) = none := by
  obtain ⟨nonempty, ahead⟩ :=
    skip_of_visible (wellFormed.operators.2 _ fits.declared) fits.visible ('(' :: behind)
  constructor
  · refine first?_eq_some_of_longest (wellFormed.operatorsOf_sorted j.op.tier)
      (Vocabulary.mem_operatorsOf_iff.2 ⟨fits.declared, rfl⟩) nonempty
      (accept?_eq_some_iff.2 ⟨'(' :: behind, ahead, (skip_cons (by decide) behind).symm⟩) rfl ?_
    intro other others left accepted _
    have inside := prefix_of_accept_group wellFormed.operators
      (Vocabulary.mem_operatorsOf_iff.1 others).1 ahead accepted
    rw [← String.length_toList, ← String.length_toList]
    exact inside.length_le
  · intro tier stronger
    rw [Option.eq_none_iff_forall_ne_some]
    rintro ⟨other, op, left⟩ found
    obtain ⟨others, -, accepted, -⟩ := of_first?_eq_some found
    obtain ⟨listed, rfl⟩ := Vocabulary.mem_operatorsOf_iff.1 others
    exact fits.unshadowed _ listed stronger
      (prefix_of_accept_group wellFormed.operators listed ahead accepted)

theorem texts_toList_cons (j : Join String) (rest : List (Join String)) :
    (texts (j :: rest)).toList =
      j.name.toList ++ '(' :: (j.operand.toList ++ ')' :: (texts rest).toList) := by
  simp [texts]

theorem text_toList (first : String) (joins : List (Join String)) :
    (text first joins).toList = '(' :: (first.toList ++ ')' :: (texts joins).toList) := by
  simp [text]

/-- Expressions with values behind operators are read as groups with these values. -/
theorem exists_groups (wellFormed : v.WellFormed) (answers : Call → CallResult)
    (joins : List (Join (String × Float))) (fits : ∀ j ∈ joins, Fits v j)
    (valued : ∀ j ∈ joins,
      Grammar.evaluate (m := Id) answers v j.operand.1 = .ok j.operand.2) :
    ∃ groups : List (Join Tree), Stand v .factor 3 groups ∧
      Read v groups (texts (joins.map (map Prod.fst))).toList [] ∧
      values answers groups = joins.map (map fun operand => .ok operand.2) := by
  induction joins with
  | nil =>
    exact ⟨[], nofun, ⟨fun tier => first?_eq_none_of_end rfl _, rfl⟩, rfl⟩
  | cons j rest ih =>
    obtain ⟨groups, stand, read, same⟩ := ih (fun k behind => fits k (List.mem_cons_of_mem _ behind))
      fun k behind => valued k (List.mem_cons_of_mem _ behind)
    obtain ⟨t, left, over_, reads, ended, value⟩ :=
      Grammar.exists_reads_of_value (valued j List.mem_cons_self)
    have fit := fits j List.mem_cons_self
    refine ⟨⟨j.name, j.op, .group t⟩ :: groups, ?_, ?_, ?_⟩
    · intro k listed
      rcases List.mem_cons.1 listed with rfl | behind
      · exact ⟨fit.declared, by cases j.op.tier <;> decide, rfl, over_⟩
      · exact stand k behind
    · rw [List.map_cons, texts_toList_cons]
      obtain ⟨found, stronger⟩ := fit.operatorAt? wellFormed
        (j.operand.1.toList ++ ')' :: (texts (rest.map (map Prod.fst))).toList)
      exact ⟨_, _, found, stronger, reads.group wellFormed ended _, read⟩
    · rw [values, List.map_cons, ← values, same, List.map_cons, map, map]
      exact congrArg (fun result => Join.mk j.name j.op result :: _) value

/-- Every failure among the operands has a property, and so has every failure of an
    operator. -/
def Blamed (answers : Call → CallResult) (P : EvaluationError → Prop)
    (joins : List (Join EvaluationResult)) : Prop :=
  ∀ j ∈ joins, (∀ e, j.operand = .error e → P e) ∧
    ∀ x y cause, answers (.operator j.name j.op x y) = .error cause →
      P (.operatorFailed j.op.tier j.name cause)

theorem apply_blamed {answers : Call → CallResult} {P : EvaluationError → Prop}
    {x : EvaluationResult} {j : Join EvaluationResult} (first : ∀ e, x = .error e → P e)
    (blamed : Blamed answers P [j]) : ∀ e, apply answers x j = .error e → P e := by
  obtain ⟨operand, failures⟩ := blamed j List.mem_cons_self
  intro e failed
  unfold apply at failed
  split at failed
  · cases failed
    exact first e rfl
  · rename_i right
    cases failed
    exact operand e right
  · rename_i y z right
    split at failed
    · rename_i cause refused
      cases failed
      exact failures y z cause refused
    · exact nomatch failed

/-- A pass adds no failures but those of its operators. -/
theorem pass_blamed {answers : Call → CallResult} {P : EvaluationError → Prop} (tier : Tier)
    {x : EvaluationResult} {joins : List (Join EvaluationResult)}
    (first : ∀ e, x = .error e → P e) (blamed : Blamed answers P joins) :
    (∀ e, (pass answers tier x joins).1 = .error e → P e) ∧
      Blamed answers P (pass answers tier x joins).2 := by
  induction joins generalizing x with
  | nil => exact ⟨first, nofun⟩
  | cons j rest ih =>
    have here : Blamed answers P [j] := fun k listed =>
      blamed k (List.mem_singleton.1 listed ▸ List.mem_cons_self)
    have behind : Blamed answers P rest := fun k listed => blamed k (List.mem_cons_of_mem _ listed)
    rw [pass]
    by_cases same : j.op.tier = tier
    · rw [if_pos same]
      exact ih (apply_blamed first here) behind
    · rw [if_neg same]
      obtain ⟨operand, failures⟩ := blamed j List.mem_cons_self
      obtain ⟨passed, others⟩ := ih operand behind
      refine ⟨first, fun k listed => ?_⟩
      rcases List.mem_cons.1 listed with rfl | listed
      · exact ⟨passed, failures⟩
      · exact others k listed

/-- A flat list of values fails by one of its operators alone. -/
theorem reduce_blamed {answers : Call → CallResult} {P : EvaluationError → Prop}
    {x : EvaluationResult} {joins : List (Join EvaluationResult)}
    (first : ∀ e, x = .error e → P e) (blamed : Blamed answers P joins) :
    ∀ e, reduce answers x joins = .error e → P e := by
  obtain ⟨factor, factors⟩ := pass_blamed .factor first blamed
  obtain ⟨monomial, monomials⟩ := pass_blamed .monomial factor factors
  exact (pass_blamed .polynomial monomial monomials).1

/-- A failure of an operator: its kind, text and cause. -/
structure IsFailureOf (name : String) (op : Operator) (cause : CallError) (e : EvaluationError) :
    Prop where
  kind : e.kind = .operator
  polynomial : op.tier = .polynomial → e.message = s!"Operator '{name}' between terms failed"
  monomial : op.tier = .monomial → e.message = s!"Operator '{name}' between factors failed"
  factor : op.tier = .factor → e.message = s!"Operator '{name}' on a factor failed"
  source : e.source? = some (.call cause)

theorem isFailureOf_operatorFailed (name : String) (op : Operator) (cause : CallError) :
    IsFailureOf name op cause (.operatorFailed op.tier name cause) := by
  refine ⟨rfl, fun tier => ?_, fun tier => ?_, fun tier => ?_, rfl⟩
  · rw [tier]
    rfl
  · rw [tier]
    rfl
  · rw [tier]
    rfl

/-- Groups with operators between them are read as a polynomial with the value of the
    flat list. -/
theorem exists_tree (wellFormed : v.WellFormed) (answers : Call → CallResult) {first : String}
    {x : Float} (joins : List (Join (String × Float)))
    (value : Grammar.evaluate (m := Id) answers v first = .ok x)
    (valued : ∀ j ∈ joins, Grammar.evaluate (m := Id) answers v j.operand.1 = .ok j.operand.2)
    (fits : ∀ j ∈ joins, Fits v j) :
    ∃ t : Tree, t.Over v (.chain .polynomial) ∧
      t.Reads v (text first (joins.map (map Prod.fst))).toList [] ∧
      t.evaluate (m := Id) answers =
        reduce answers (.ok x) (joins.map (map fun operand => .ok operand.2)) := by
  obtain ⟨t, left, tOver, reads, ended, tValue⟩ := Grammar.exists_reads_of_value value
  obtain ⟨groups, stand, read, same⟩ := exists_groups wellFormed answers joins fits valued
  have group := reads.group wellFormed ended (texts (joins.map (map Prod.fst))).toList
  obtain ⟨whole, wholeOver, wholeReads, wholeValue⟩ := exists_polynomial answers
    (show (Tree.group t).Over v .factor from ⟨rfl, tOver⟩) stand group read
  rw [← text_toList] at wholeReads
  refine ⟨whole, wholeOver, wholeReads, ?_⟩
  rw [wholeValue, same]
  exact congrArg (fun result => reduce answers result _) tValue

/-- What groups with operators between them come to. -/
structure Reduces (answers : Call → CallResult) (v : Vocabulary) (first : String) (x : Float)
    (joins : List (Join (String × Float))) : Prop where
  value : Grammar.evaluate (m := Id) answers v (text first (joins.map (map Prod.fst))) =
    reduce answers (.ok x) (joins.map (map fun operand => .ok operand.2))
  /-- A failure is that of the first application that fails, in the order in which the calls of
      the text are made. It is one of an operator between the groups. -/
  failure : ∀ e, Grammar.evaluate (m := Id) answers v (text first (joins.map (map Prod.fst))) =
      .error e →
    ∃ j ∈ joins, ∃ y z cause,
      Call.FailsFirst answers (Grammar.calls answers v (text first (joins.map (map Prod.fst))))
        (.operator j.name j.op y z) cause ∧
      IsFailureOf j.name j.op cause e
  /-- No call fails without a failure of the text. -/
  stops : ∀ request ∈ Grammar.calls answers v (text first (joins.map (map Prod.fst))),
    ∀ cause, answers request = .error cause →
      ∃ e, Grammar.evaluate (m := Id) answers v (text first (joins.map (map Prod.fst))) = .error e

/-- A failure of the flat list is one of its operators'. -/
theorem exists_of_reduce {answers : Call → CallResult} {x : Float}
    {joins : List (Join (String × Float))} {e : EvaluationError}
    (failed : reduce answers (.ok x) (joins.map (map fun operand => .ok operand.2)) = .error e) :
    ∃ j ∈ joins, ∃ cause, e = .operatorFailed j.op.tier j.name cause := by
  have first : ∀ e, (.ok x : EvaluationResult) = .error e →
      ∃ j ∈ joins, ∃ cause, e = .operatorFailed j.op.tier j.name cause := nofun
  refine reduce_blamed first ?_ e failed
  intro k listed
  obtain ⟨j, inside, rfl⟩ := List.mem_map.1 listed
  refine ⟨fun e failed => ?_, fun _ _ cause _ => ⟨j, inside, cause, rfl⟩⟩
  exact absurd failed (by simp [map])

/-- Groups with operators between them come to the value of the flat list, and fail with the
    first of their operators that fails. -/
theorem evaluate_text {v : Vocabulary} (reachable : v.Reachable) (answers : Call → CallResult)
    {first : String} {x : Float} (joins : List (Join (String × Float)))
    (value : Grammar.evaluate (m := Id) answers v first = .ok x)
    (valued : ∀ j ∈ joins, Grammar.evaluate (m := Id) answers v j.operand.1 = .ok j.operand.2)
    (fits : ∀ j ∈ joins, Fits v j) : Reduces answers v first x joins := by
  have wellFormed := reachable.wellFormed
  have flat : Grammar.evaluate (m := Id) answers v (text first (joins.map (map Prod.fst))) =
      reduce answers (.ok x) (joins.map (map fun operand => .ok operand.2)) := by
    obtain ⟨t, stands, reads, same⟩ := exists_tree wellFormed answers joins value valued fits
    rw [Grammar.evaluate_of_reads (m := Id) answers stands reads rfl, same]
  have keeps := Grammar.expression_keeps v (text first (joins.map (map Prod.fst)))
  rcases keeps.failsFirst answers with ⟨answered, ofText⟩ | ⟨request, cause, fails, failed⟩
  · refine ⟨flat, fun e failed => ?_, fun request made cause refused => ?_⟩
    · -- Every call is answered, so the failure would be one of the text.
      obtain ⟨j, -, cause, rfl⟩ := exists_of_reduce (flat.symm.trans failed)
      exact nomatch (ofText _ failed).ends
    · obtain ⟨y, value⟩ := answered request made
      exact nomatch value.symm.trans refused
  · refine ⟨flat, fun e same => ?_, fun _ _ _ _ => ⟨_, failed⟩⟩
    obtain rfl : request.failure cause = e := Except.error.inj (failed.symm.trans same)
    obtain ⟨j, listed, _, reported⟩ := exists_of_reduce (flat.symm.trans same)
    cases request with
    | function name f arguments => exact nomatch reported
    | operator name op y z =>
      injection reported with _ named _
      subst named
      -- One operator is declared under the name, and the call is of a declared one.
      have declared := Grammar.mem_operators_of_calls fails.mem
      obtain rfl := wellFormed.operators.unique declared (fits j listed).declared
      exact ⟨j, listed, y, z, cause, fails, isFailureOf_operatorFailed j.name j.op cause⟩

/-- A digit comes to its number where only operators are declared. -/
theorem evaluate_digit {v : Vocabulary} (noFunction : v.functions.entries = [])
    (noConstant : v.constants.entries = []) {c : Char} (digit : Character.isDigit c = true) :
    Grammar.evaluate (m := Id) Call.finish v (String.ofList [c]) =
      Numeral.read (String.ofList [c]) := by
  refine Grammar.evaluate_of_plain (m := Id) _ (Grammar.plain_of_isDigit digit) ?_ ?_
  · rw [Vocabulary.functionAt?, noFunction]
    rfl
  · rw [Vocabulary.constantAt?, noConstant]
    rfl

def sum : Operator := Standard.valueOperator .polynomial (· + ·)

def product : Operator := Standard.valueOperator .monomial (· * ·)

/-- An operator that always fails. -/
def failing (tier : Tier) (message : String) : Operator := ⟨tier, fun _ _ => .fail (.failed message)⟩

/-- A sum and a product, of which one is named by a part of the other; and two operators that
    always fail, named alike. -/
def sumAndProduct : Vocabulary :=
  (Vocabulary.empty.declareAll (.operators
    [("+", sum), ("++", product), ("*", failing .monomial "no product"),
     ("**", failing .factor "no power")])).vocabulary

theorem entries_sumAndProduct : sumAndProduct.operators.entries =
    [("**", failing .factor "no power"), ("++", product), ("*", failing .monomial "no product"),
     ("+", sum)] := rfl

theorem fits_sumAndProduct {α : Type} {j : Join α}
    (listed : (j.name, j.op) ∈ sumAndProduct.operators.entries) : Fits sumAndProduct j := by
  have visible : ∀ entry ∈ sumAndProduct.operators.entries, ∀ c ∈ entry.1.toList.head?,
      Character.isIgnored c = false := by
    simp [entries_sumAndProduct, Character.isIgnored]
  have unshadowed : ∀ entry ∈ sumAndProduct.operators.entries,
      ∀ other ∈ sumAndProduct.operators.entries,
        entry.2.tier.strength < other.2.tier.strength → ¬ other.1.toList <+: entry.1.toList := by
    simp [entries_sumAndProduct, sum, product, failing, Standard.valueOperator, Tier.strength]
  exact ⟨listed, visible _ listed, unshadowed _ listed⟩

/-- The product is taken before the sum, and each by its own name. Of a product and a power
    behind it that both fail, the product is reported: it is called first. -/
theorem evaluate_sumAndProduct :
    sumAndProduct.Reachable ∧
      Grammar.evaluate (m := Id) Call.finish sumAndProduct "(1)+(2)++(3)" = .ok 7 ∧
      ∃ e, Grammar.evaluate (m := Id) Call.finish sumAndProduct "(1)*(2)+(3)**(4)" = .error e ∧
        e.kind = .operator ∧ e.message = "Operator '*' between factors failed" ∧
          e.source? = some (.call (.failed "no product")) ∧
            ∃ y z, Call.FailsFirst Call.finish
              (Grammar.calls Call.finish sumAndProduct "(1)*(2)+(3)**(4)")
              (.operator "*" (failing .monomial "no product") y z) (.failed "no product") := by
  have reachable : sumAndProduct.Reachable := .declareAll _ .empty
  have one : Grammar.evaluate (m := Id) Call.finish sumAndProduct "1" = .ok 1 :=
    evaluate_digit rfl rfl (c := '1') (by decide)
  have two : Grammar.evaluate (m := Id) Call.finish sumAndProduct "2" = .ok 2 :=
    evaluate_digit rfl rfl (c := '2') (by decide)
  have three : Grammar.evaluate (m := Id) Call.finish sumAndProduct "3" = .ok 3 :=
    evaluate_digit rfl rfl (c := '3') (by decide)
  have four : Grammar.evaluate (m := Id) Call.finish sumAndProduct "4" = .ok 4 :=
    evaluate_digit rfl rfl (c := '4') (by decide)
  refine ⟨reachable, ?_, ?_⟩
  · let joins : List (Join (String × Float)) := [⟨"+", sum, "2", 2⟩, ⟨"++", product, "3", 3⟩]
    have fits : ∀ j ∈ joins, Fits sumAndProduct j := by
      intro j listed
      refine fits_sumAndProduct ?_
      rcases List.mem_pair.1 listed with rfl | rfl <;> simp [entries_sumAndProduct]
    have valued : ∀ j ∈ joins,
        Grammar.evaluate (m := Id) Call.finish sumAndProduct j.operand.1 = .ok j.operand.2 :=
      List.forall_mem_cons.2 ⟨two, List.forall_mem_cons.2 ⟨three, nofun⟩⟩
    have flat := (evaluate_text reachable Call.finish joins one valued fits).value
    have texts : text "1" (joins.map (map Prod.fst)) = "(1)+(2)++(3)" := by decide
    have value : reduce Call.finish (.ok 1) (joins.map (map fun operand => .ok operand.2)) =
        .ok (1 + 2 * 3) := rfl
    have seven : (1 + 2 * 3 : Float) = 7 := by decide +kernel
    rw [texts, value, seven] at flat
    exact flat
  · let joins : List (Join (String × Float)) :=
      [⟨"*", failing .monomial "no product", "2", 2⟩, ⟨"+", sum, "3", 3⟩,
       ⟨"**", failing .factor "no power", "4", 4⟩]
    have fits : ∀ j ∈ joins, Fits sumAndProduct j := by
      intro j listed
      refine fits_sumAndProduct ?_
      rcases List.mem_cons.1 listed with rfl | listed
      · simp [entries_sumAndProduct]
      · rcases List.mem_pair.1 listed with rfl | rfl <;> simp [entries_sumAndProduct]
    have valued : ∀ j ∈ joins,
        Grammar.evaluate (m := Id) Call.finish sumAndProduct j.operand.1 = .ok j.operand.2 :=
      List.forall_mem_cons.2
        ⟨two, List.forall_mem_cons.2 ⟨three, List.forall_mem_cons.2 ⟨four, nofun⟩⟩⟩
    have reduces := evaluate_text reachable Call.finish joins one valued fits
    have texts : text "1" (joins.map (map Prod.fst)) = "(1)*(2)+(3)**(4)" := by decide
    have value : reduce Call.finish (.ok 1) (joins.map (map fun operand => .ok operand.2)) =
        .error (.operatorFailed .monomial "*" (.failed "no product")) := rfl
    have failed := reduces.value.trans value
    obtain ⟨j, listed, y, z, cause, fails, report⟩ := reduces.failure _ failed
    rw [texts] at failed fails
    rcases List.mem_cons.1 listed with rfl | listed
    · cases report.source
      exact ⟨_, failed, report.kind, report.monomial rfl, report.source, y, z, fails⟩
    · obtain ⟨-, -, -, refused⟩ := fails
      rcases List.mem_pair.1 listed with rfl | rfl
      · exact nomatch refused
      · cases refused
        exact absurd report.source (by decide)

end Join

end Calculator
