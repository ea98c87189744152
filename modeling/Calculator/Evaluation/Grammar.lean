import Calculator.Evaluation.Reading
import Calculator.Numeral.Draft

/-!
The rules of expressions. A chain of a tier joins operands by the operators of
that tier, from the left; the operands of polynomials are monomial chains, those
of monomials are factor chains, and those of factor chains are factors. A factor
is a group or a number; a number is a call, a constant, a group behind a sign, or
digits. No tree is built: each rule gives the value of what it has read and waits
for callables on the way.

Each rule reads a shorter text than its caller, or the same text at a lower rank.
-/
namespace Calculator.Grammar

/-- A sign, if one comes next: plus is tried before minus. -/
def takeSign? (start : Cursor) : Option (Taken Char start) :=
  takeFirst? start (fun _ => true) [("+", '+'), ("-", '-')]

/-- Whether a sign or an opening parenthesis comes next. -/
def startsGroup (start : Cursor) : Bool :=
  start.lookahead ["+"] || start.lookahead ["-"] || start.lookahead ["("]

/-- Collects digits and at most one decimal point from `ahead`. -/
def collectDigits (draft : Numeral.Draft) (passed : List Char) :
    (ahead : List Char) → Except EvaluationError Numeral.Draft × Cursor
  | [] => (.ok draft, ⟨passed, []⟩)
  | c :: rest =>
    if Character.isDigit c then collectDigits (draft.pushDigit c) (c :: passed) rest
    else if c = '.' then
      match draft.pushPoint with
      | .error e => (.error e, ⟨c :: passed, rest⟩)
      | .ok pointed => collectDigits pointed (c :: passed) rest
    else (.ok draft, ⟨passed, c :: rest⟩)

theorem collectDigits_ahead_le (draft : Numeral.Draft) (passed ahead : List Char) :
    (collectDigits draft passed ahead).2.ahead.length ≤ ahead.length := by
  induction ahead generalizing draft passed with
  | nil => simp [collectDigits]
  | cons c rest ih =>
    unfold collectDigits
    split
    · exact Nat.le_succ_of_le (ih _ _)
    · split
      · cases draft.pushPoint with
        | error e => simp
        | ok pointed => exact Nat.le_succ_of_le (ih _ _)
      · simp

/-- The number of the digits that come next, after what the draft holds. -/
def digits (draft : Numeral.Draft) (start : Cursor) : Reading Float start :=
  let collected := collectDigits draft start.passed start.ahead
  ⟨collected.1.bind (·.read), collected.2, collectDigits_ahead_le draft start.passed start.ahead⟩

/-- The closing parenthesis of a group whose value is known. -/
def closeGroup (value : Float) (start : Cursor) : Except EvaluationError Float × Cursor :=
  let c := start.skipIgnored
  if c.isOver then (.error .unclosedGroup, c)
  else
    match c.next true with
    | (.error e, d) => (.error e, d)
    | (.ok found, d) =>
      if found = ')' then (.ok value, d.skipIgnored) else (.error (.unclosedGroupAt found), d)

theorem closeGroup_ahead_le (value : Float) (start : Cursor) :
    (closeGroup value start).2.ahead.length ≤ start.ahead.length := by
  have skipped := Cursor.skipIgnored_ahead_le start
  have taken := Cursor.next_ahead_le start.skipIgnored true
  unfold closeGroup
  dsimp only
  split
  · exact skipped
  · split
    · rename_i e d h
      rw [h] at taken
      exact Nat.le_trans taken skipped
    · rename_i found d h
      rw [h] at taken
      split
      · exact Nat.le_trans (Cursor.skipIgnored_ahead_le d) (Nat.le_trans taken skipped)
      · exact Nat.le_trans taken skipped

/-- What stands behind an argument: whether another one follows. -/
def separator (start : Cursor) : Except EvaluationError Bool × Cursor :=
  let c := start.skipIgnored
  if c.isOver then (.error .unclosedArguments, c)
  else
    match c.next true with
    | (.error e, d) => (.error e, d)
    | (.ok found, d) =>
      if found = ',' then (.ok true, d)
      else if found = ')' then (.ok false, d.skipIgnored)
      else (.error (.missingSeparator found), d)

theorem separator_ahead_le (start : Cursor) :
    (separator start).2.ahead.length ≤ start.ahead.length := by
  have skipped := Cursor.skipIgnored_ahead_le start
  have taken := Cursor.next_ahead_le start.skipIgnored true
  unfold separator
  dsimp only
  split
  · exact skipped
  · split
    · rename_i e d h
      rw [h] at taken
      exact Nat.le_trans taken skipped
    · rename_i found d h
      rw [h] at taken
      split
      · exact Nat.le_trans taken skipped
      · split
        · exact Nat.le_trans (Cursor.skipIgnored_ahead_le d) (Nat.le_trans taken skipped)
        · exact Nat.le_trans taken skipped

theorem separator_ahead_lt {start c : Cursor} {more : Bool}
    (h : separator start = (.ok more, c)) : c.ahead.length < start.ahead.length := by
  have skipped := Cursor.skipIgnored_ahead_le start
  unfold separator at h
  dsimp only at h
  split at h
  · simp at h
  · split at h
    · simp at h
    · rename_i found d taken
      have moved := Cursor.next_ahead_lt taken
      split at h
      · obtain ⟨-, rfl⟩ := Prod.mk.injEq .. ▸ h
        omega
      · split at h
        · obtain ⟨-, rfl⟩ := Prod.mk.injEq .. ▸ h
          have behind := Cursor.skipIgnored_ahead_le d
          omega
        · simp at h

/-- Rank of the chains of a tier among the rules that read the same text. -/
def chainRank : Tier → Nat
  | .factor => 4
  | .monomial => 6
  | .polynomial => 8

/-- Rank of the operands of a tier among the rules that read the same text. -/
def operandRank : Tier → Nat
  | .factor => 3
  | .monomial => 5
  | .polynomial => 7

/-- Rank of a number behind its sign. Only a sign can be followed by a group. -/
def numberRank : Option Char → Nat
  | none => 0
  | some _ => 9

mutual

/-- A chain of a tier: an operand, and the operators and operands behind it. -/
def chain (v : Vocabulary) (tier : Tier) (start : Cursor) : Reader Float start :=
  (operand v tier start).andThen fun value c _ => chainRest v tier value c
termination_by (start.ahead.length, chainRank tier)
decreasing_by
  · exact Prod.Lex.right _ (by cases tier <;> decide)
  · rename_i le
    rcases Nat.lt_or_eq_of_le le with lt | same
    · exact Prod.Lex.left _ _ lt
    · rw [same]
      exact Prod.Lex.right _ (by cases tier <;> decide)

/-- An operand of a chain. -/
def operand (v : Vocabulary) (tier : Tier) (start : Cursor) : Reader Float start :=
  match tier with
  | .polynomial => chain v .monomial start
  | .monomial => chain v .factor start
  | .factor => factor v start
termination_by (start.ahead.length, operandRank tier)
decreasing_by all_goals exact Prod.Lex.right _ (by decide)

/-- The operators of a tier and their right operands, applied in turn. -/
def chainRest (v : Vocabulary) (tier : Tier) (value : Float) (start : Cursor) :
    Reader Float start :=
  match v.takeOperator? tier start with
  | none => .value value start (Nat.le_refl _)
  | some taken =>
    let joined : Reader Float taken.cursor :=
      (operand v tier taken.cursor).andThen fun right c _ =>
        .ask start.place (.operator taken.name taken.declaration value right) fun result =>
          chainRest v tier result c
    joined.since start (Nat.le_of_lt taken.forward)
termination_by (start.ahead.length, 0)
decreasing_by
  · exact Prod.Lex.left _ _ taken.forward
  · rename_i le
    exact Prod.Lex.left _ _ (Nat.lt_of_le_of_lt le taken.forward)

/-- A group or a number. -/
def factor (v : Vocabulary) (start : Cursor) : Reader Float start :=
  match taken : start.next true with
  | (.error e, c) =>
    .failure e c (by have forward := Cursor.next_ahead_le start true; rwa [taken] at forward)
  | (.ok first, c) =>
    if first = '(' then
      let group : Reader Float c :=
        (chain v .polynomial c).andThen fun value c _ =>
          .settled (closeGroup value c).1 (closeGroup value c).2 (closeGroup_ahead_le value c)
      group.since start (Nat.le_of_lt (Cursor.next_ahead_lt taken))
    else (number v c.retreat).since start (Cursor.retreat_ahead_le taken)
termination_by (start.ahead.length, 2)
decreasing_by
  · exact Prod.Lex.left _ _ (Cursor.next_ahead_lt taken)
  · rcases Nat.lt_or_eq_of_le (Cursor.retreat_ahead_le taken) with lt | same
    · exact Prod.Lex.left _ _ lt
    · rw [same]
      exact Prod.Lex.right _ (by decide)

/-- A number with an optional sign. -/
def number (v : Vocabulary) (start : Cursor) : Reader Float start :=
  match takeSign? start with
  | none => numberAfter v none start
  | some taken =>
    (numberAfter v (some taken.declaration) taken.cursor).since start
      (Nat.le_of_lt taken.forward)
termination_by (start.ahead.length, 1)
decreasing_by
  · exact Prod.Lex.right _ (by decide)
  · exact Prod.Lex.left _ _ taken.forward

/-- A number behind its sign: a call, a constant, a group behind a sign, or
    digits. Only the value of the group takes the sign as a number. -/
def numberAfter (v : Vocabulary) (sign : Option Char) (start : Cursor) : Reader Float start :=
  let draft := Numeral.Draft.ofSign sign
  match v.takeFunction? start with
  | some taken =>
    let called : Reader Float taken.cursor :=
      (arguments v taken.cursor).andThen fun values c _ =>
        .ask start.place (.function taken.name taken.declaration values) fun result =>
          .settled (draft.pushValue result).read c (Nat.le_refl _)
    called.since start (Nat.le_of_lt taken.forward)
  | none =>
    match v.takeConstant? start with
    | some taken =>
      .settled (draft.pushValue taken.declaration).read taken.cursor (Nat.le_of_lt taken.forward)
    | none =>
      -- Without a sign nothing that starts a group stands here, since a factor reads groups
      -- itself (`Grammar.startsGroup_retreat`). So `sign.isSome` does no more than let the
      -- recursion end: the rules without it come to the same (`Walk.rules_agree`).
      if _grouped : sign.isSome ∧ startsGroup start then
        (chain v .polynomial start).andThen fun value c _ =>
          .settled (draft.applySign value).read c (Nat.le_refl _)
      else .done (digits draft start)
termination_by (start.ahead.length, numberRank sign)
decreasing_by
  · exact Prod.Lex.left _ _ taken.forward
  · obtain ⟨s, rfl⟩ := Option.isSome_iff_exists.1 _grouped.1
    exact Prod.Lex.right _ (Nat.lt_succ_self 8)

/-- The arguments of a call, in parentheses. -/
def arguments (v : Vocabulary) (start : Cursor) : Reader (List Float) start :=
  match opened : start.accept? "(" with
  | none => .failure .missingParentheses start (Nat.le_refl _)
  | some c =>
    match closed : c.accept? ")" with
    | some d =>
      .value [] d (Nat.le_trans (Cursor.accept?_ahead_le closed) (Cursor.accept?_ahead_le opened))
    | none => (argumentList v c).since start (Cursor.accept?_ahead_le opened)
termination_by (start.ahead.length, 0)
decreasing_by exact Prod.Lex.left _ _ (Cursor.accept?_ahead_lt opened (by decide))

/-- One or more arguments with commas between them, up to the closing parenthesis. -/
def argumentList (v : Vocabulary) (start : Cursor) : Reader (List Float) start :=
  if start.isOver then .failure .unclosedArguments start (Nat.le_refl _)
  else
    (chain v .polynomial start).andThen fun first c _ =>
      match separated : separator c with
      | (.error e, d) =>
        .failure e d (by have forward := separator_ahead_le c; rwa [separated] at forward)
      | (.ok false, d) => .value [first] d (Nat.le_of_lt (separator_ahead_lt separated))
      | (.ok true, d) =>
        let others : Reader (List Float) d :=
          (argumentList v d).andThen fun rest c _ => .value (first :: rest) c (Nat.le_refl _)
        others.since c (Nat.le_of_lt (separator_ahead_lt separated))
termination_by (start.ahead.length, 9)
decreasing_by
  · exact Prod.Lex.right _ (by decide)
  · rename_i le
    exact Prod.Lex.left _ _ (Nat.lt_of_lt_of_le (separator_ahead_lt separated) le)

end

/-- A whole expression, from its start to its end. -/
def expression (v : Vocabulary) (start : Cursor) : Reader Float start :=
  if start.location ≠ 0 then .failure .reentrant start (Nat.le_refl _)
  else if start.isOver then .failure .emptyExpression start (Nat.le_refl _)
  else
    (chain v .polynomial start).andThen fun value c _ =>
      let rest := c.skipIgnored
      if rest.isOver then .value value rest (Cursor.skipIgnored_ahead_le c)
      else .failure (.trailing rest.remaining) rest (Cursor.skipIgnored_ahead_le c)

end Calculator.Grammar
