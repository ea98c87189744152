import Calculator.Proofs.Evaluation.Activation
import Calculator.Proofs.Evaluation.Scanner
import Calculator.Proofs.Text.Track

/-!
# The rules on a track

The rules of expressions in steps on a location: what is looked for is accepted and given
back, a name is looked for and then accepted once more, the first character of a number is
taken and given back, and a number looks for a group whether or not it has taken a sign.
A rule carries the proof that it went onward. Every name that is taken and every parenthesis
leaves less unread, so no rule goes on without end.
-/
namespace Calculator

namespace Track

variable {α : Type}

/-! ## Names -/

/-- The first entry whose name comes next in front of given literals. -/
def find (t : Track) (behind : List String) : List (String × α) → Option (String × α) × Track
  | [] => (none, t)
  | entry :: entries =>
    let tried := t.lookahead (entry.1 :: behind)
    if tried.1 then (some entry, tried.2) else tried.2.find behind entries

/-- Passes the name of the first entry that is found, and not what stands behind it. -/
def take (t : Track) (behind : List String) (entries : List (String × α)) :
    Option (String × α) × Track :=
  match t.find behind entries with
  | (none, u) => (none, u)
  | (some entry, u) => (some entry, (u.accept entry.1).2)

/-- Passes the first name that comes next. -/
def passFirst (t : Track) : List (String × α) → Option (String × α) × Track
  | [] => (none, t)
  | entry :: entries =>
    let tried := t.accept entry.1
    if tried.1 then (some entry, tried.2) else tried.2.passFirst entries

def takeSign (t : Track) : Option (String × Char) × Track := t.passFirst [("+", '+'), ("-", '-')]

def takeOperator (t : Track) (v : Vocabulary) (tier : Tier) : Option (String × Operator) × Track :=
  if t.isOver then (none, t) else t.passFirst (v.operatorsOf tier)

def takeFunction (t : Track) (v : Vocabulary) : Option (String × Function) × Track :=
  t.take ["("] v.functions.entries

def takeConstant (t : Track) (v : Vocabulary) : Option (String × Float) × Track :=
  t.take [] v.constants.entries

def groupStarts : List (String × Char) := [("+", '+'), ("-", '-'), ("(", '(')]

/-- Whether a sign or an opening parenthesis comes next. -/
def startsGroup (t : Track) : Bool × Track :=
  ((t.find [] groupStarts).1.isSome, (t.find [] groupStarts).2)

/-- What a number goes on with behind its sign. -/
inductive Opening where
  | call (name : String) (f : Function)
  | constant (value : Float)
  | group
  | digits

/-- Functions are tried before constants, and both before groups. -/
def opening (t : Track) (v : Vocabulary) : Opening × Track :=
  match t.takeFunction v with
  | (some (name, f), u) => (.call name f, u)
  | (none, u) =>
    match u.takeConstant v with
    | (some (_, value), w) => (.constant value, w)
    | (none, w) => (if w.startsGroup.1 then .group else .digits, w.startsGroup.2)

section

variable (t : Track)

theorem onward_find (behind : List String) (entries : List (String × α)) :
    t.Onward (t.find behind entries).2 := by
  induction entries generalizing t with
  | nil => exact .refl t
  | cons entry entries ih =>
    have tried := onward_lookahead t (entry.1 :: behind)
    rw [find]
    split
    · exact tried
    · exact tried.trans (ih _)

theorem onward_take (behind : List String) (entries : List (String × α)) :
    t.Onward (t.take behind entries).2 := by
  have found := t.onward_find behind entries
  rw [take]
  split
  · rename_i u missed
    rwa [missed] at found
  · rename_i entry u found'
    rw [found'] at found
    exact found.trans (onward_accept u entry.1)

theorem onward_passFirst (entries : List (String × α)) : t.Onward (t.passFirst entries).2 := by
  induction entries generalizing t with
  | nil => exact .refl t
  | cons entry entries ih =>
    have tried := onward_accept t entry.1
    rw [passFirst]
    split
    · exact tried
    · exact tried.trans (ih _)

theorem onward_takeSign : t.Onward t.takeSign.2 := t.onward_passFirst _

theorem onward_takeOperator (v : Vocabulary) (tier : Tier) : t.Onward (t.takeOperator v tier).2 := by
  rw [takeOperator]
  split
  · exact .refl t
  · exact t.onward_passFirst _

theorem onward_opening (v : Vocabulary) : t.Onward (t.opening v).2 := by
  have function := t.onward_take ["("] v.functions.entries
  rw [opening]
  split
  · rename_i name f u taken
    rw [takeFunction] at taken
    rwa [taken] at function
  · rename_i u missed
    rw [takeFunction] at missed
    rw [missed] at function
    have constant := u.onward_take [] v.constants.entries
    split
    · rename_i name value w taken
      rw [takeConstant] at taken
      rw [taken] at constant
      exact function.trans constant
    · rename_i w missed
      rw [takeConstant] at missed
      rw [missed] at constant
      exact (function.trans constant).trans (w.onward_find _ _)

end

/-! ## Names that are taken at once -/

section

variable (t : Track) {entries : List (String × α)}

theorem cursor_isOver : t.cursor.isOver = t.isOver := by
  rw [Bool.eq_iff_iff, isOver_iff, Cursor.isOver, List.isEmpty_iff, cursor_ahead]

theorem find_eq (behind : List String) (entries : List (String × α)) :
    ((t.find behind entries).1, (t.find behind entries).2.cursor) =
      (entries.find? fun entry => t.cursor.lookahead (entry.1 :: behind), t.cursor) := by
  induction entries generalizing t with
  | nil => rfl
  | cons entry entries ih =>
    obtain ⟨found, stays⟩ := Prod.mk.inj (cursor_lookahead t (entry.1 :: behind))
    rw [find, List.find?_cons, ← found]
    cases tried : (t.lookahead (entry.1 :: behind)).1 with
    | true => exact congrArg (some entry, ·) stays
    | false =>
      rw [← stays]
      exact ih _

theorem take_eq (behind : List String) :
    ((t.take behind entries).1, (t.take behind entries).2.cursor) =
      Scan.outcome t.cursor (entries.find? fun entry => t.cursor.lookahead (entry.1 :: behind)) := by
  obtain ⟨found, stays⟩ := Prod.mk.inj (t.find_eq behind entries)
  rw [take, ← found]
  split
  · rename_i u missed
    rw [missed] at stays ⊢
    exact congrArg (none, ·) stays
  · rename_i entry u found'
    rw [found'] at stays ⊢
    obtain ⟨-, passed⟩ := Prod.mk.inj (cursor_accept u entry.1)
    rw [Scan.outcome, passed]
    exact congrArg (some entry, ·) (by rw [show u.cursor = t.cursor from stays])

theorem passFirst_eq :
    ((t.passFirst entries).1, (t.passFirst entries).2.cursor) =
      Scan.outcome t.cursor (entries.find? fun entry => t.cursor.lookahead [entry.1]) := by
  induction entries generalizing t with
  | nil => rfl
  | cons entry entries ih =>
    obtain ⟨found, passed⟩ := Prod.mk.inj (cursor_accept t entry.1)
    rw [passFirst, List.find?_cons, Scan.lookahead_one, ← found]
    cases tried : (t.accept entry.1).1 with
    | true => exact congrArg (some entry, ·) passed
    | false =>
      obtain ⟨-, stays⟩ := accept?_of_missed (ne_true_of_eq_false tried)
      rw [← stays]
      exact ih _

theorem takeSign_eq :
    (t.takeSign.1, t.takeSign.2.cursor) = Scan.ofTaken t.cursor (Grammar.takeSign? t.cursor) := by
  rw [takeSign, passFirst_eq, Grammar.takeSign?]
  exact (Scan.ofTaken_takeFirst? _ (fun _ => rfl) (by decide)).symm

theorem startsGroup_eq :
    (t.startsGroup.1, t.startsGroup.2.cursor) = (Grammar.startsGroup t.cursor, t.cursor) := by
  obtain ⟨found, stays⟩ := Prod.mk.inj (t.find_eq [] groupStarts)
  refine Prod.ext ?_ stays
  rw [startsGroup, found, List.isSome_find?]
  simp [groupStarts, Grammar.startsGroup, Bool.or_assoc]

variable {v : Vocabulary} (known : v.WellFormed)
include known

theorem takeFunction_eq :
    ((t.takeFunction v).1, (t.takeFunction v).2.cursor) =
      Scan.ofTaken t.cursor (v.takeFunction? t.cursor) := by
  rw [takeFunction, take_eq]
  exact (Scan.ofTaken_takeFirst? _ (fun _ => rfl) known.functions.nonempty).symm

theorem takeConstant_eq :
    ((t.takeConstant v).1, (t.takeConstant v).2.cursor) =
      Scan.ofTaken t.cursor (v.takeConstant? t.cursor) := by
  rw [takeConstant, take_eq]
  exact (Scan.ofTaken_takeFirst? _ (fun _ => rfl) known.constants.nonempty).symm

theorem takeOperator_eq (tier : Tier) :
    ((t.takeOperator v tier).1, (t.takeOperator v tier).2.cursor) =
      Scan.ofTaken t.cursor (v.takeOperator? tier t.cursor) := by
  rw [← known.takeOperator_run, Scan.takeOperator, StateT.run_bind, takeOperator]
  change _ = StateT.run (if t.cursor.isOver = true then pure none else
    (v.operatorsOf tier).findM? fun entry => Scan.accept entry.1) t.cursor
  rw [t.cursor_isOver]
  split
  · rfl
  · rw [Scan.findM?_accept_run, passFirst_eq]
    simp only [Scan.lookahead_one]

end

/-- What is taken at `c` behind a sign, and the position `d` that is left. -/
def Opening.IsAt (v : Vocabulary) (c d : Cursor) : Opening → Prop
  | .call name f => ∃ forward, v.takeFunction? c = some ⟨name, f, d, forward⟩
  | .constant value =>
    v.takeFunction? c = none ∧ ∃ name forward, v.takeConstant? c = some ⟨name, value, d, forward⟩
  | .group =>
    v.takeFunction? c = none ∧ v.takeConstant? c = none ∧ Grammar.startsGroup c = true ∧ d = c
  | .digits =>
    v.takeFunction? c = none ∧ v.takeConstant? c = none ∧ Grammar.startsGroup c = false ∧ d = c

section

variable {v : Vocabulary} (known : v.WellFormed) (t : Track)
include known

theorem opening_isAt : (t.opening v).1.IsAt v t.cursor (t.opening v).2.cursor := by
  have function := t.takeFunction_eq known
  rw [opening]
  split
  · rename_i name f u taken
    rw [taken] at function
    exact Scan.exists_of_ofTaken_eq_some function.symm
  · rename_i u missed
    rw [missed] at function
    obtain ⟨noFunction, stays⟩ := Scan.of_ofTaken_eq_none function.symm
    have constant := u.takeConstant_eq known
    simp only at stays
    rw [stays] at constant
    split
    · rename_i name value w taken
      rw [taken] at constant
      obtain ⟨forward, found⟩ := Scan.exists_of_ofTaken_eq_some constant.symm
      exact ⟨noFunction, name, forward, found⟩
    · rename_i w missed
      rw [missed] at constant
      obtain ⟨noConstant, stays⟩ := Scan.of_ofTaken_eq_none constant.symm
      obtain ⟨group, stays'⟩ := Prod.mk.inj w.startsGroup_eq
      simp only at stays
      rw [stays] at group stays'
      cases starts : w.startsGroup.1 with
      | true => exact ⟨noFunction, noConstant, group.symm.trans starts, stays'⟩
      | false => exact ⟨noFunction, noConstant, group.symm.trans starts, stays'⟩

end

/-! ## What is taken leaves less unread -/

section

variable {t : Track}

theorem left_lt_of_taken {name : String} {x : α} {u : Track} {found : Option (Taken α t.cursor)}
    (same : (some (name, x), u.cursor) = Scan.ofTaken t.cursor found) : u.left < t.left := by
  obtain ⟨forward, -⟩ := Scan.exists_of_ofTaken_eq_some same.symm
  rwa [ahead_length, ahead_length] at forward

theorem left_accept_lt {literal : String} (nonempty : literal.toList ≠ [])
    (found : (t.accept literal).1 = true) : (t.accept literal).2.left < t.left := by
  have forward := Cursor.accept?_ahead_lt (accept?_of_found found) nonempty
  rwa [ahead_length, ahead_length] at forward

/-- Where a character was given back, it comes next again: no parenthesis does if it is none. -/
theorem opens_retreat {first : Char} (taken : (t.next true).1 = .ok first) (other : first ≠ '(') :
    Grammar.opens (t.next true).2.retreat.cursor = false := by
  obtain ⟨rest, ahead, kept⟩ := unread_retreat taken
  rw [Grammar.opens, cursor_ahead, ahead, Unread.skip_cons kept]
  simpa using other

theorem left_takeSign_lt {entry : String × Char} (found : t.takeSign.1 = some entry) :
    t.takeSign.2.left < t.left := by
  have same := t.takeSign_eq
  rw [found] at same
  exact left_lt_of_taken same

variable {v : Vocabulary} (known : v.WellFormed)
include known

theorem left_takeOperator_lt {tier : Tier} {entry : String × Operator}
    (found : (t.takeOperator v tier).1 = some entry) : (t.takeOperator v tier).2.left < t.left := by
  have same := t.takeOperator_eq known tier
  rw [found] at same
  exact left_lt_of_taken same

/-- A call or a constant leaves less unread. -/
theorem left_opening_lt (noGroup : (t.opening v).1 ≠ .group)
    (noDigits : (t.opening v).1 ≠ .digits) :
    (t.opening v).2.left < t.left := by
  have taken := t.opening_isAt known
  rw [← ahead_length, ← ahead_length]
  cases opening : (t.opening v).1 with
  | call name f =>
    rw [opening] at taken
    obtain ⟨forward, -⟩ := taken
    exact forward
  | constant value =>
    rw [opening] at taken
    obtain ⟨-, name, forward, -⟩ := taken
    exact forward
  | group => exact absurd opening noGroup
  | digits => exact absurd opening noDigits

end

/-! ## Digits, parentheses and commas -/

/-- Collects digits and at most one decimal point. What follows them is taken and given back. -/
def collectDigits (t : Track) (draft : Numeral.Draft) :
    Except EvaluationError Numeral.Draft × Track :=
  if t.isOver then (.ok draft, t)
  else
    match _taken : (t.next false).1 with
    | .error e => (.error e, (t.next false).2)
    | .ok c =>
      if Character.isDigit c then (t.next false).2.collectDigits (draft.pushDigit c)
      else if c = '.' then
        match draft.pushPoint with
        | .error e => (.error e, (t.next false).2)
        | .ok pointed => (t.next false).2.collectDigits pointed
      else (.ok draft, (t.next false).2.retreat)
termination_by t.left
decreasing_by all_goals exact (onward_next t false).left_lt_iff.2 (lt_of_next _taken)

/-- The next character behind ignored ones; the failure is `missing` at the end of the text. -/
def nextPart (t : Track) (missing : EvaluationError) : Except EvaluationError Char × Track :=
  if t.skipIgnored.isOver then (.error missing, t.skipIgnored) else t.skipIgnored.next true

/-- The closing parenthesis of a group whose value is known. -/
def closeGroup (t : Track) (value : Float) : Except EvaluationError Float × Track :=
  let u := (t.nextPart .unclosedGroup).2
  match (t.nextPart .unclosedGroup).1 with
  | .error e => (.error e, u)
  | .ok found =>
    if found = ')' then (.ok value, u.skipIgnored) else (.error (.unclosedGroupAt found), u)

/-- What stands behind an argument: whether another one follows. -/
def separator (t : Track) : Except EvaluationError Bool × Track :=
  let u := (t.nextPart .unclosedArguments).2
  match (t.nextPart .unclosedArguments).1 with
  | .error e => (.error e, u)
  | .ok found =>
    if found = ',' then (.ok true, u)
    else if found = ')' then (.ok false, u.skipIgnored)
    else (.error (.missingSeparator found), u)

section

variable (t : Track)

theorem onward_collectDigits (draft : Numeral.Draft) : t.Onward (t.collectDigits draft).2 := by
  fun_induction collectDigits t draft with
  | case1 t draft ended => exact .refl t
  | case2 t draft more e failed => exact onward_next t false
  | case3 t draft more c taken digit ih => exact (onward_next t false).trans ih
  | case4 t draft more e second taken noDigit => exact onward_next t false
  | case5 t draft more pointed point taken noDigit ih => exact (onward_next t false).trans ih
  | case6 t draft more c taken noDigit noPoint => exact onward_retreat taken

theorem onward_nextPart (missing : EvaluationError) : t.Onward (t.nextPart missing).2 := by
  rw [nextPart]
  split
  · exact onward_skipIgnored t
  · exact (onward_skipIgnored t).trans (onward_next _ true)

theorem onward_closeGroup (value : Float) : t.Onward (t.closeGroup value).2 := by
  have next := t.onward_nextPart .unclosedGroup
  rw [closeGroup]
  split
  · exact next
  · split
    · exact next.trans (onward_skipIgnored _)
    · exact next

theorem onward_separator : t.Onward t.separator.2 := by
  have next := t.onward_nextPart .unclosedArguments
  rw [separator]
  split
  · exact next
  · split
    · exact next
    · split
      · exact next.trans (onward_skipIgnored _)
      · exact next

variable {t}

theorem lt_of_nextPart {missing : EvaluationError} {c : Char}
    (taken : (t.nextPart missing).1 = .ok c) : t.location < (t.nextPart missing).2.location := by
  rw [nextPart] at taken ⊢
  split
  · rename_i ended
    rw [if_pos ended] at taken
    cases taken
  · rename_i more
    rw [if_neg more] at taken
    exact (onward_skipIgnored t).low.trans_lt (lt_of_next taken)

theorem left_separator_lt {more : Bool} (separated : t.separator.1 = .ok more) :
    t.separator.2.left < t.left := by
  rw [t.onward_separator.left_lt_iff]
  rw [separator] at separated ⊢
  cases taken : (t.nextPart .unclosedArguments).1 with
  | error e => simp [taken] at separated
  | ok found =>
    have moved := lt_of_nextPart taken
    dsimp only
    split
    · exact moved
    · split
      · exact moved.trans_le (onward_skipIgnored _).low
      · exact moved

end

end Track

/-- What a rule came to on a track, and where that left the track. -/
structure Walked (α : Type) (start : Track) where
  result : Except EvaluationError α
  track : Track
  onward : start.Onward track

/-- A rule on a track that may wait for callables. -/
abbrev Walk (α : Type) (start : Track) := Interaction (Walked α start)

namespace Walk

variable {α β : Type} {start : Track}

/-- The outcome that was settled without any call. -/
def settled (result : Except EvaluationError α) (track : Track) (onward : start.Onward track) :
    Walk α start :=
  .done ⟨result, track, onward⟩

/-- The same walk, seen from an earlier track. -/
def since (earlier : Track) (onward : earlier.Onward start) (p : Walk α start) : Walk α earlier :=
  p.map fun w => ⟨w.result, w.track, onward.trans w.onward⟩

/-- Walks on after a value; a failure ends both. -/
def andThen (p : Walk α start)
    (next : (x : α) → (t : Track) → start.Onward t → Walk β t) : Walk β start :=
  p.bind fun w =>
    match w with
    | ⟨.error e, t, onward⟩ => settled (.error e) t onward
    | ⟨.ok x, t, onward⟩ => (next x t onward).since start onward

/-- Asks for the answer of a call and walks on; the call's failure is one of the walk. -/
def ask (place : Nat) (request : Call) (next : Float → Walk α start) : Walk α start :=
  .call request ⟨place, start.cursor⟩ fun answer =>
    match answer with
    | .error e => settled (.error (request.failure e)) start (.refl start)
    | .ok x => next x

/-! ## Rules -/

/-- Rank of a number among the rules that read the same text. -/
def numberRank (t : Track) : Nat := if Grammar.opens t.cursor then 12 else 3

/-- Rank of a number behind its sign. A sign or a parenthesis can be followed by a group. -/
def behindSignRank (t : Track) : Nat := if Grammar.startsGroup t.cursor then 11 else 2

/-- A rule enters others further on, or at a lower rank. -/
theorem enters_of_rank {t : Track} (onward : start.Onward t) {lower rank : Nat}
    (less : lower < rank) : Prod.Lex (· < ·) (· < ·) (t.left, lower) (start.left, rank) := by
  rcases Nat.lt_or_eq_of_le onward.left_le with further | same
  · exact .left _ _ further
  · rw [same]
    exact .right _ less

/-- Behind a sign less is unread, and without one only a parenthesis starts a group. -/
theorem enters_behindSign (t : Track) :
    Prod.Lex (· < ·) (· < ·) (t.takeSign.2.left, behindSignRank t.takeSign.2)
      (t.left, numberRank t) := by
  cases found : t.takeSign.1 with
  | some entry => exact .left _ _ (Track.left_takeSign_lt found)
  | none =>
    have same := t.takeSign_eq
    rw [found] at same
    obtain ⟨unsigned, stays⟩ := Scan.of_ofTaken_eq_none same.symm
    refine enters_of_rank t.onward_takeSign ?_
    rw [behindSignRank, stays, numberRank]
    cases group : Grammar.startsGroup t.cursor with
    | true => simp [Grammar.opens_of_unsigned unsigned group]
    | false => cases Grammar.opens t.cursor <;> simp

/-- A number that a factor enters begins with no parenthesis. -/
theorem enters_number {t : Track} {first : Char} (taken : (t.next true).1 = .ok first)
    (other : first ≠ '(') :
    Prod.Lex (· < ·) (· < ·)
      ((t.next true).2.retreat.left, numberRank (t.next true).2.retreat) (t.left, 4) := by
  refine enters_of_rank (Track.onward_retreat taken) ?_
  rw [numberRank, Track.opens_retreat taken other]
  decide

open Grammar (chainRank operandRank)

/-- A group is entered only where a sign or a parenthesis comes next. -/
theorem rank_of_group {v : Vocabulary} (known : v.WellFormed) {t : Track}
    (found : (t.opening v).1 = .group) : chainRank .polynomial + 2 < behindSignRank t := by
  have taken := t.opening_isAt known
  rw [found] at taken
  obtain ⟨-, -, group, -⟩ := taken
  rw [behindSignRank, if_pos group]
  decide

mutual

/-- A chain of a tier: an operand, and the operators and operands behind it. -/
def chain {v : Vocabulary} (known : v.WellFormed) (tier : Tier) (start : Track) :
    Walk Float start :=
  (operand known tier start).andThen fun value t _ => chainRest known tier value t
termination_by (start.left, chainRank tier + 2)
decreasing_by
  · exact Prod.Lex.right _ (by cases tier <;> decide)
  · rename_i onward
    exact enters_of_rank onward (by cases tier <;> decide)

/-- An operand of a chain. -/
def operand {v : Vocabulary} (known : v.WellFormed) (tier : Tier) (start : Track) :
    Walk Float start :=
  match tier with
  | .polynomial => chain known .monomial start
  | .monomial => chain known .factor start
  | .factor => factor known start
termination_by (start.left, operandRank tier + 2)
decreasing_by all_goals exact Prod.Lex.right _ (by decide)

/-- The operators of a tier and their right operands, applied in turn. -/
def chainRest {v : Vocabulary} (known : v.WellFormed) (tier : Tier) (value : Float)
    (start : Track) : Walk Float start :=
  match _found : (start.takeOperator v tier).1 with
  | none => settled (.ok value) (start.takeOperator v tier).2 (start.onward_takeOperator v tier)
  | some entry =>
    let joined : Walk Float (start.takeOperator v tier).2 :=
      (operand known tier (start.takeOperator v tier).2).andThen fun right t _ =>
        ask start.cursor.place (.operator entry.1 entry.2 value right) fun result =>
          chainRest known tier result t
    joined.since start (start.onward_takeOperator v tier)
termination_by (start.left, 0)
decreasing_by
  · exact Prod.Lex.left _ _ (Track.left_takeOperator_lt known _found)
  · rename_i onward
    exact Prod.Lex.left _ _ (onward.left_le.trans_lt (Track.left_takeOperator_lt known _found))

/-- A group or a number. -/
def factor {v : Vocabulary} (known : v.WellFormed) (start : Track) : Walk Float start :=
  match _taken : (start.next true).1 with
  | .error e => settled (.error e) (start.next true).2 (start.onward_next true)
  | .ok first =>
    if _opened : first = '(' then
      let group : Walk Float (start.next true).2 :=
        (chain known .polynomial (start.next true).2).andThen fun value t _ =>
          settled (t.closeGroup value).1 (t.closeGroup value).2 (t.onward_closeGroup value)
      group.since start (start.onward_next true)
    else (number known (start.next true).2.retreat).since start (Track.onward_retreat _taken)
termination_by (start.left, 4)
decreasing_by
  · exact Prod.Lex.left _ _ ((start.onward_next true).left_lt_iff.2 (Track.lt_of_next _taken))
  · exact enters_number _taken _opened

/-- A number with an optional sign. -/
def number {v : Vocabulary} (known : v.WellFormed) (start : Track) : Walk Float start :=
  (numberAfter known (start.takeSign.1.map (·.2)) start.takeSign.2).since start
    start.onward_takeSign
termination_by (start.left, numberRank start)
decreasing_by exact enters_behindSign start

/-- A number behind its sign, if it has one: a call, a constant, a group or digits. Only the
    value of the group takes the sign as a number. -/
def numberAfter {v : Vocabulary} (known : v.WellFormed) (sign : Option Char) (start : Track) :
    Walk Float start :=
  match _opening : (start.opening v).1 with
  | .call name f =>
    let called : Walk Float (start.opening v).2 :=
      (arguments known (start.opening v).2).andThen fun values t _ =>
        ask start.cursor.place (.function name f values) fun result =>
          settled ((Numeral.Draft.ofSign sign).pushValue result).read t (.refl t)
    called.since start (start.onward_opening v)
  | .constant value =>
    settled ((Numeral.Draft.ofSign sign).pushValue value).read (start.opening v).2
      (start.onward_opening v)
  | .group =>
    let group : Walk Float (start.opening v).2 :=
      (chain known .polynomial (start.opening v).2).andThen fun value t _ =>
        settled ((Numeral.Draft.ofSign sign).applySign value).read t (.refl t)
    group.since start (start.onward_opening v)
  | .digits =>
    let collected := (start.opening v).2.collectDigits (Numeral.Draft.ofSign sign)
    settled (collected.1.bind (·.read)) collected.2
      ((start.onward_opening v).trans ((start.opening v).2.onward_collectDigits _))
termination_by (start.left, behindSignRank start)
decreasing_by
  · exact Prod.Lex.left _ _ (Track.left_opening_lt known (by simp [_opening]) (by simp [_opening]))
  · exact enters_of_rank (start.onward_opening v) (rank_of_group known _opening)

/-- The arguments of a call, in parentheses. -/
def arguments {v : Vocabulary} (known : v.WellFormed) (start : Track) : Walk (List Float) start :=
  if _opened : (start.accept "(").1 then
    (openArguments known (start.accept "(").2).since start (start.onward_accept "(")
  else settled (.error .missingParentheses) (start.accept "(").2 (start.onward_accept "(")
termination_by (start.left, 0)
decreasing_by exact Prod.Lex.left _ _ (Track.left_accept_lt (by decide) _opened)

/-- The arguments of a call behind their opening parenthesis. -/
def openArguments {v : Vocabulary} (known : v.WellFormed) (start : Track) :
    Walk (List Float) start :=
  if (start.accept ")").1 then settled (.ok []) (start.accept ")").2 (start.onward_accept ")")
  else (argumentList known (start.accept ")").2).since start (start.onward_accept ")")
termination_by (start.left, 12)
decreasing_by exact enters_of_rank (start.onward_accept ")") (by decide)

/-- One or more arguments with commas between them, up to the closing parenthesis. -/
def argumentList {v : Vocabulary} (known : v.WellFormed) (start : Track) :
    Walk (List Float) start :=
  if start.isOver then settled (.error .unclosedArguments) start (.refl start)
  else
    (chain known .polynomial start).andThen fun first t _ =>
      match _separated : t.separator.1 with
      | .error e => settled (.error e) t.separator.2 t.onward_separator
      | .ok false => settled (.ok [first]) t.separator.2 t.onward_separator
      | .ok true =>
        let others : Walk (List Float) t.separator.2 :=
          (argumentList known t.separator.2).andThen fun rest u _ =>
            settled (.ok (first :: rest)) u (.refl u)
        others.since t t.onward_separator
termination_by (start.left, 11)
decreasing_by
  · exact Prod.Lex.right _ (by decide)
  · rename_i onward
    exact Prod.Lex.left _ _ ((Track.left_separator_lt _separated).trans_le onward.left_le)

end

/-! ## The rules branch by branch -/

section

variable {v : Vocabulary} (known : v.WellFormed) {t : Track}

theorem chainRest_of_missed {tier : Tier} (value : Float)
    (missed : (t.takeOperator v tier).1 = none) :
    chainRest known tier value t =
      settled (.ok value) (t.takeOperator v tier).2 (t.onward_takeOperator v tier) := by
  rw [chainRest]
  split
  · rfl
  · rename_i found
    cases missed.symm.trans found

theorem chainRest_of_taken {tier : Tier} (value : Float) {entry : String × Operator}
    (taken : (t.takeOperator v tier).1 = some entry) :
    chainRest known tier value t = since t (t.onward_takeOperator v tier)
      ((operand known tier (t.takeOperator v tier).2).andThen fun right u _ =>
        ask t.cursor.place (.operator entry.1 entry.2 value right) fun result =>
          chainRest known tier result u) := by
  rw [chainRest]
  split
  · rename_i missed
    cases missed.symm.trans taken
  · rename_i found
    cases taken.symm.trans found
    rfl

theorem factor_of_error {e : EvaluationError} (failed : (t.next true).1 = .error e) :
    factor known t = settled (.error e) (t.next true).2 (t.onward_next true) := by
  rw [factor]
  split
  · rename_i found
    cases failed.symm.trans found
    rfl
  · rename_i found
    cases failed.symm.trans found

theorem factor_of_group (opened : (t.next true).1 = .ok '(') :
    factor known t = since t (t.onward_next true)
      ((chain known .polynomial (t.next true).2).andThen fun value u _ =>
        settled (u.closeGroup value).1 (u.closeGroup value).2 (u.onward_closeGroup value)) := by
  rw [factor]
  split
  · rename_i found
    cases opened.symm.trans found
  · rename_i found
    cases opened.symm.trans found
    rfl

theorem factor_of_number {first : Char} (taken : (t.next true).1 = .ok first)
    (other : first ≠ '(') :
    factor known t =
      since t (Track.onward_retreat taken) (number known (t.next true).2.retreat) := by
  rw [factor]
  split
  · rename_i found
    cases taken.symm.trans found
  · rename_i found
    cases taken.symm.trans found
    rw [dif_neg other]

variable (sign : Option Char)

theorem numberAfter_of_call {name : String} {f : Function}
    (found : (t.opening v).1 = .call name f) :
    numberAfter known sign t = since t (t.onward_opening v)
      ((arguments known (t.opening v).2).andThen fun values u _ =>
        ask t.cursor.place (.function name f values) fun result =>
          settled ((Numeral.Draft.ofSign sign).pushValue result).read u (.refl u)) := by
  rw [numberAfter]
  split
  all_goals
    rename_i same
    cases found.symm.trans same
  rfl

theorem numberAfter_of_constant {value : Float} (found : (t.opening v).1 = .constant value) :
    numberAfter known sign t =
      settled ((Numeral.Draft.ofSign sign).pushValue value).read (t.opening v).2
        (t.onward_opening v) := by
  rw [numberAfter]
  split
  all_goals
    rename_i same
    cases found.symm.trans same
  rfl

theorem numberAfter_of_group (found : (t.opening v).1 = .group) :
    numberAfter known sign t = since t (t.onward_opening v)
      ((chain known .polynomial (t.opening v).2).andThen fun value u _ =>
        settled ((Numeral.Draft.ofSign sign).applySign value).read u (.refl u)) := by
  rw [numberAfter]
  split
  all_goals
    rename_i same
    cases found.symm.trans same
  rfl

theorem numberAfter_of_digits (found : (t.opening v).1 = .digits) :
    numberAfter known sign t =
      settled (((t.opening v).2.collectDigits (Numeral.Draft.ofSign sign)).1.bind (·.read))
        ((t.opening v).2.collectDigits (Numeral.Draft.ofSign sign)).2
        ((t.onward_opening v).trans ((t.opening v).2.onward_collectDigits _)) := by
  rw [numberAfter]
  split
  all_goals
    rename_i same
    cases found.symm.trans same
  rfl

end

end Walk

end Calculator
