import Calculator.Proofs.Evaluation.Activation
import Calculator.Proofs.Evaluation.Scanner

/-!
# The longest name is taken

Wherever a name may come next, the longest declared one that fits is taken, and the position
is left right behind it; where none fits, nothing is taken and the position stays. Two names
of one length never fit both, so the order among them is never asked for. The operators of a
tier are taken in turn like this, up to the first position where none comes next.
-/
namespace Calculator

variable {α : Type}

/-! ## Longest entries -/

/-- Of the declared entries whose names fit, the one with the longest name. -/
structure Longest (declared : String × α → Prop) (fits : String → Prop) (entry : String × α) :
    Prop where
  member : declared entry
  fit : fits entry.1
  longest : ∀ other, declared other → fits other.1 →
    other = entry ∨ other.1.length < entry.1.length

theorem Longest.unique {declared : String × α → Prop} {fits : String → Prop}
    {first second : String × α} (one : Longest declared fits first)
    (other : Longest declared fits second) : first = second := by
  rcases other.longest first one.member one.fit with same | shorter
  · exact same
  · rcases one.longest second other.member other.fit with same | longer
    · exact same.symm
    · exact absurd shorter longer.asymm

/-- Longer names come first, those of one length in whatever order, and no name twice. -/
def LongerFirst (entries : List (String × α)) : Prop :=
  entries.Pairwise fun a b => a.1 ≠ b.1 ∧ b.1.length ≤ a.1.length

theorem longerFirst_of_sorted {entries : List (String × α)}
    (sorted : entries.Pairwise fun a b => Table.Precedes a.1 b.1) : LongerFirst entries := by
  refine sorted.imp fun {a b} precedes => ?_
  rcases precedes with longer | ⟨equal, less⟩
  · exact ⟨fun same => (same ▸ longer).ne rfl, longer.le⟩
  · exact ⟨fun same => lt_irrefl _ (same ▸ less), equal.ge⟩

namespace Unread

/-- The text begins with a name. -/
def Begins (text : List Char) (name : String) : Prop := name.toList <+: text

/-- The text begins with a name in front of an opening parenthesis. -/
def BeginsCall (text : List Char) (name : String) : Prop :=
  ∃ behind opened, text = name.toList ++ behind ∧ skip behind = '(' :: opened

theorem BeginsCall.begins {text : List Char} {name : String} (call : BeginsCall text name) :
    Begins text name := by
  obtain ⟨behind, -, rfl, -⟩ := call
  exact List.prefix_append _ _

end Unread

open Unread

section

variable {entries : List (String × α)} {fitting : String → Bool} {text : List Char}

/-- With longer names first, the first entry that fits is the longest one. -/
theorem longest_of_find? (listed : LongerFirst entries)
    (begins : ∀ name, fitting name = true → Begins text name) {entry : String × α}
    (found : entries.find? (fun other => fitting other.1) = some entry) :
    Longest (· ∈ entries) (fitting · = true) entry := by
  obtain ⟨fit, before, after, rfl, earlier⟩ := List.find?_eq_some_iff_append.1 found
  refine ⟨List.mem_append_right _ List.mem_cons_self, fit, fun other member fits => ?_⟩
  rcases List.mem_append.1 member with front | behind
  · have unfit := earlier other front
    rw [fits] at unfit
    cases unfit
  · rcases List.mem_cons.1 behind with same | later
    · exact .inl same
    · obtain ⟨apart, longer⟩ :=
        (List.pairwise_cons.1 (List.pairwise_append.1 listed).2.1).1 other later
      refine .inr (lt_of_le_of_ne longer fun equal => apart ?_)
      exact eq_of_prefix_of_length_eq (begins _ fit) (begins _ fits) equal.symm

theorem find?_eq_some_iff_longest (listed : LongerFirst entries)
    (begins : ∀ name, fitting name = true → Begins text name) {entry : String × α} :
    entries.find? (fun other => fitting other.1) = some entry ↔
      Longest (· ∈ entries) (fitting · = true) entry := by
  refine ⟨longest_of_find? listed begins, fun longest => ?_⟩
  cases found : entries.find? fun other => fitting other.1 with
  | none => exact absurd longest.fit (List.find?_eq_none.1 found entry longest.member)
  | some other => rw [(longest_of_find? listed begins found).unique longest]

variable (fitting) in
/-- The order among names of one length does not matter. -/
theorem find?_of_perm {listing : List (String × α)} (listed : LongerFirst entries)
    (other : LongerFirst listing) (same : listing.Perm entries)
    (begins : ∀ name, fitting name = true → Begins text name) :
    listing.find? (fun entry => fitting entry.1) = entries.find? fun entry => fitting entry.1 := by
  have members : (· ∈ listing) = (· ∈ entries) := funext fun _ => propext same.mem_iff
  refine Option.ext fun entry => ?_
  rw [find?_eq_some_iff_longest other begins, find?_eq_some_iff_longest listed begins, members]

end

/-! ## What comes next at a position -/

section

variable {c : Cursor}

/-- A name that comes next is passed, and the position is left right behind it. -/
theorem exists_accept {name : String} {behind : List Char}
    (ahead : skip c.ahead = name.toList ++ behind) :
    ∃ d, c.accept? name = some d ∧ d.ahead = skip behind ∧ d.text = c.text := by
  have accepted : accept? name c.ahead = some (skip behind) :=
    accept?_eq_some_iff.2 ⟨behind, ahead, rfl⟩
  rw [← accept?_ahead, Option.map_eq_some_iff] at accepted
  obtain ⟨d, found, left⟩ := accepted
  exact ⟨d, found, left, Cursor.accept?_text found⟩

theorem lookahead_name_iff {name : String} :
    c.lookahead [name] = true ↔ Begins (skip c.ahead) name := by
  rw [lookahead_singleton, Option.isSome_iff_exists]
  constructor
  · rintro ⟨left, accepted⟩
    exact prefix_of_accept? accepted
  · rintro ⟨behind, ahead⟩
    exact ⟨_, accept?_eq_some_iff.2 ⟨behind, ahead.symm, rfl⟩⟩

theorem lookahead_call_iff {name : String} :
    c.lookahead [name, "("] = true ↔ BeginsCall (skip c.ahead) name := by
  rw [Cursor.lookahead]
  constructor
  · intro found
    cases accepted : c.accept? name with
    | none => simp [accepted] at found
    | some d =>
      have left := accept?_ahead c name
      rw [accepted, Option.map_some, eq_comm, accept?_eq_some_iff] at left
      obtain ⟨behind, ahead, stop⟩ := left
      simp only [accepted] at found
      rw [lookahead_singleton, ← opensParenthesis, opensParenthesis_iff, stop, skip_skip] at found
      obtain ⟨opened, parenthesis⟩ := found
      exact ⟨behind, opened, ahead, parenthesis⟩
  · rintro ⟨behind, opened, ahead, parenthesis⟩
    obtain ⟨d, accepted, left, -⟩ := exists_accept ahead
    simp only [accepted]
    rw [lookahead_singleton, ← opensParenthesis, opensParenthesis_iff, left, skip_skip]
    exact ⟨opened, parenthesis⟩

end

/-! ## Steps that take a name -/

/-- What a step that takes a name comes to. -/
structure Munches (declared : String × α → Prop) (fits : String → Prop) (c : Cursor)
    (step : Scan (Option (String × α))) : Prop where
  /-- Exactly the longest declared name that fits is taken. -/
  taken : ∀ entry, (step.run c).1 = some entry ↔ Longest declared fits entry
  /-- Nothing is taken exactly where no declared name fits. -/
  missed : (step.run c).1 = none ↔ ∀ entry, declared entry → ¬ fits entry.1
  /-- A name that is taken is passed with the ignored characters behind it, and nothing else. -/
  moves : ∀ entry, (step.run c).1 = some entry → (step.run c).2.text = c.text ∧
    ∃ behind, skip c.ahead = entry.1.toList ++ behind ∧ (step.run c).2.ahead = skip behind
  /-- Where nothing is taken the position stays. -/
  stays : (step.run c).1 = none → (step.run c).2 = c

/-- A step that takes the first entry that fits takes the longest one. -/
theorem munches_of_find? {declared : String × α → Prop} {fits : String → Prop} {c : Cursor}
    {step : Scan (Option (String × α))} {entries : List (String × α)} (fitting : String → Bool)
    (runs : step.run c = Scan.outcome c (entries.find? fun entry => fitting entry.1))
    (listed : LongerFirst entries) (members : ∀ entry, entry ∈ entries ↔ declared entry)
    (same : ∀ name, fitting name = true ↔ fits name)
    (begins : ∀ name, fits name → Begins (skip c.ahead) name) :
    Munches declared fits c step := by
  have longest (entry : String × α) : entries.find? (fun other => fitting other.1) = some entry ↔
      Longest declared fits entry := by
    obtain rfl : (· ∈ entries) = declared := funext fun entry => propext (members entry)
    obtain rfl : (fitting · = true) = fits := funext fun name => propext (same name)
    exact find?_eq_some_iff_longest listed begins
  have first : (step.run c).1 = entries.find? fun entry => fitting entry.1 := by
    rw [runs, Scan.outcome_fst]
  constructor
  · intro entry
    rw [first, longest]
  · rw [first, List.find?_eq_none]
    simp only [members, same]
  · intro entry taken
    rw [first] at taken
    obtain ⟨behind, ahead⟩ := begins entry.1 ((longest entry).1 taken).fit
    obtain ⟨d, accepted, left, text⟩ := exists_accept ahead.symm
    rw [runs, taken, Scan.outcome, accepted]
    exact ⟨text, behind, ahead.symm, left⟩
  · intro missed
    rw [first] at missed
    rw [runs, missed]
    rfl

section

variable {v : Vocabulary} (wellFormed : v.WellFormed) (c : Cursor)
include wellFormed

theorem takeFunction_munches :
    Munches (· ∈ v.functions.entries) (BeginsCall (skip c.ahead)) c (Scan.takeFunction v) :=
  munches_of_find? (c.lookahead [·, "("]) (Scan.take_run c ["("])
    (longerFirst_of_sorted wellFormed.functions.1) (fun _ => Iff.rfl) (fun _ => lookahead_call_iff)
    fun _ => BeginsCall.begins

theorem takeConstant_munches :
    Munches (· ∈ v.constants.entries) (Begins (skip c.ahead)) c (Scan.takeConstant v) :=
  munches_of_find? (c.lookahead [·]) (Scan.take_run c [])
    (longerFirst_of_sorted wellFormed.constants.1) (fun _ => Iff.rfl) (fun _ => lookahead_name_iff)
    fun _ => id

theorem takeOperator_munches (tier : Tier) :
    Munches (fun entry => entry ∈ v.operators.entries ∧ entry.2.tier = tier)
      (Begins (skip c.ahead)) c (Scan.takeOperator v tier) :=
  munches_of_find? (c.lookahead [·]) (wellFormed.takeOperator_outcome c tier)
    (longerFirst_of_sorted (wellFormed.operatorsOf_sorted tier))
    (fun _ => Vocabulary.mem_operatorsOf_iff) (fun _ => lookahead_name_iff) fun _ => id

/-- A function is left right in front of its parenthesis. -/
theorem head?_of_takeFunction {entry : String × Function}
    (taken : ((Scan.takeFunction v).run c).1 = some entry) :
    ((Scan.takeFunction v).run c).2.ahead.head? = some '(' := by
  have munches := takeFunction_munches wellFormed c
  obtain ⟨-, behind, ahead, left⟩ := munches.moves entry taken
  obtain ⟨other, opened, split, parenthesis⟩ := ((munches.taken entry).1 taken).fit
  rw [split, List.append_cancel_left_eq] at ahead
  rw [left, ← ahead, parenthesis, List.head?_cons]

end

/-! ## The operators of a tier in turn -/

namespace Grammar

/-- One turn of a chain: an operator of the tier is passed and its right operand read, and the
    value becomes an answer of the operator. -/
inductive Turn (v : Vocabulary) (tier : Tier) : Float × Cursor → Float × Cursor → Prop where
  | turn {x y result : Float} {c d e : Cursor} {entry : String × Operator}
      (passed : (Scan.takeOperator v tier).run c = (some entry, d))
      (right : Reader.Ends (operand v tier d) y e) : Turn v tier (x, c) (result, e)

variable {v : Vocabulary} {tier : Tier} {c : Cursor}

theorem chainRest_of_missed (missed : v.takeOperator? tier c = none) (x : Float) :
    chainRest v tier x c = .value x c (Nat.le_refl _) := by
  rw [chainRest, missed]

theorem chainRest_of_taken {taken : Taken Operator c} (found : v.takeOperator? tier c = some taken)
    (x : Float) : chainRest v tier x c = Reader.since c (Nat.le_of_lt taken.forward)
      ((operand v tier taken.cursor).andThen fun y d _ =>
        .ask c.place (.operator taken.name taken.declaration x y) fun result =>
          chainRest v tier result d) := by
  rw [chainRest, found]

variable (wellFormed : v.WellFormed)
include wellFormed

/-- No operator is taken exactly where no name of the tier comes next. -/
theorem takeOperator?_eq_none_iff :
    v.takeOperator? tier c = none ↔ ∀ entry ∈ v.operators.entries, entry.2.tier = tier →
      ¬ Begins (skip c.ahead) entry.1 := by
  have missed := (takeOperator_munches wellFormed c tier).missed
  rw [wellFormed.takeOperator_run] at missed
  simp only [and_imp] at missed
  rw [← missed]
  cases v.takeOperator? tier c with
  | none => exact iff_of_true rfl rfl
  | some taken => simp [Scan.ofTaken]

/-- A chain goes on from where a turn of it ends. -/
theorem Turn.ends {start next : Float × Cursor} (turn : Turn v tier start next) {y : Float}
    {d : Cursor} (ends : Reader.Ends (chainRest v tier next.1 next.2) y d) :
    Reader.Ends (chainRest v tier start.1 start.2) y d := by
  obtain ⟨passed, right⟩ := turn
  rw [wellFormed.takeOperator_run] at passed
  cases found : v.takeOperator? tier _ with
  | none =>
    rw [found] at passed
    cases passed
  | some taken =>
    rw [found] at passed
    cases passed
    rw [chainRest_of_taken found, Reader.ends_since_iff, Reader.ends_andThen_iff]
    exact ⟨_, _, right.forward, right, Reader.ends_ask_iff.2 ⟨_, ends⟩⟩

theorem ends_of_turns {start last : Float × Cursor}
    (turns : Relation.ReflTransGen (Turn v tier) start last)
    (missed : v.takeOperator? tier last.2 = none) :
    Reader.Ends (chainRest v tier start.1 start.2) last.1 last.2 := by
  induction turns using Relation.ReflTransGen.head_induction_on with
  | refl =>
    rw [chainRest_of_missed missed]
    exact .done
  | head turn _ ih => exact turn.ends wellFormed ih

/-- A chain that ends behind an operator has taken a turn, and ends from there. -/
theorem exists_turn {taken : Taken Operator c} (found : v.takeOperator? tier c = some taken)
    {x y : Float} {e : Cursor} (ends : Reader.Ends (chainRest v tier x c) y e) :
    ∃ result d, d.ahead.length < c.ahead.length ∧ Turn v tier (x, c) (result, d) ∧
      Reader.Ends (chainRest v tier result d) y e := by
  rw [chainRest_of_taken found, Reader.ends_since_iff, Reader.ends_andThen_iff] at ends
  obtain ⟨right, d, le, read, answered⟩ := ends
  obtain ⟨result, rest⟩ := Reader.ends_ask_iff.1 answered
  refine ⟨result, d, Nat.lt_of_le_of_lt le taken.forward, ?_, rest⟩
  have passed := wellFormed.takeOperator_run c tier
  rw [found] at passed
  exact .turn passed read

/-- A chain ends, turn by turn, at the first position where no operator of its tier comes next. -/
theorem ends_chainRest_iff {x y : Float} {d : Cursor} :
    Reader.Ends (chainRest v tier x c) y d ↔
      Relation.ReflTransGen (Turn v tier) (x, c) (y, d) ∧ v.takeOperator? tier d = none := by
  constructor
  · intro ends
    induction size : c.ahead.length using Nat.strong_induction_on generalizing x c with
    | _ n ih =>
      cases found : v.takeOperator? tier c with
      | none =>
        rw [chainRest_of_missed found, Reader.ends_value_iff] at ends
        obtain ⟨rfl, rfl⟩ := ends
        exact ⟨.refl, found⟩
      | some taken =>
        obtain ⟨result, e, shorter, turn, rest⟩ := exists_turn wellFormed found ends
        obtain ⟨turns, missed⟩ := ih _ (size ▸ shorter) rest rfl
        exact ⟨.head turn turns, missed⟩
  · rintro ⟨turns, missed⟩
    exact ends_of_turns wellFormed turns missed

end Grammar

/-! ## Every position -/

/-- What a step that looks for a name comes to. -/
structure Notices (declared : String × α → Prop) (fits : String → Prop) (c : Cursor)
    (step : Scan Bool) : Prop where
  found : (step.run c).1 = true ↔ ∃ entry, declared entry ∧ fits entry.1
  stays : (step.run c).2 = c

/-- The rules take at once what the steps take one after another. -/
structure Scan.Agrees (v : Vocabulary) (c : Cursor) : Prop where
  takeOperator : ∀ tier, (takeOperator v tier).run c = ofTaken c (v.takeOperator? tier c)
  takeFunction : (takeFunction v).run c = ofTaken c (v.takeFunction? c)
  takeConstant : (takeConstant v).run c = ofTaken c (v.takeConstant? c)
  isFunction : (isFunction v).run c = (v.isFunction c, c)
  isConstant : (isConstant v).run c = (v.isConstant c, c)

/-- Any listing of the names with longer ones first leads to the same. -/
structure Scan.Untied (v : Vocabulary) (c : Cursor) : Prop where
  operators : ∀ tier listing, LongerFirst listing → listing.Perm (v.operatorsOf tier) →
    (listing.findM? fun entry => accept entry.1).run c = (takeOperator v tier).run c
  functions : ∀ listing, LongerFirst listing → listing.Perm v.functions.entries →
    (take ["("] listing).run c = (takeFunction v).run c
  constants : ∀ listing, LongerFirst listing → listing.Perm v.constants.entries →
    (take [] listing).run c = (takeConstant v).run c

/-- A name is noticed exactly where it is taken. -/
theorem notices_of_munches {declared : String × α → Prop} {fits : String → Prop} {c : Cursor}
    {behind : List String} {entries : List (String × α)}
    (munches : Munches declared fits c (Scan.take behind entries)) :
    Notices declared fits c (do return (← Scan.find behind entries).isSome) := by
  have missed := munches.missed
  rw [Scan.take_run, Scan.outcome_fst] at missed
  constructor
  · rw [StateT.run_bind, Scan.find_run]
    change Option.isSome _ = true ↔ _
    rw [Option.isSome_iff_ne_none, Ne, missed]
    push Not
    rfl
  · rw [StateT.run_bind, Scan.find_run]
    rfl

/-- What becomes of a chain of a tier behind an operand. -/
structure Grammar.Chains (v : Vocabulary) (tier : Tier) (c : Cursor) : Prop where
  /-- Behind an operator that comes next, its operand is read, it is applied, and the chain
      goes on. -/
  goes : ∀ entry d, (Scan.takeOperator v tier).run c = (some entry, d) → ∀ x, ∃ le,
    chainRest v tier x c = Reader.since c le ((operand v tier d).andThen fun y e _ =>
      .ask c.place (.operator entry.1 entry.2 x y) fun result => chainRest v tier result e)
  /-- The chain stops at once exactly where no operator of the tier comes next. -/
  stops : ∀ x, chainRest v tier x c = .value x c (Nat.le_refl _) ↔
    ∀ entry ∈ v.operators.entries, entry.2.tier = tier → ¬ Begins (skip c.ahead) entry.1
  /-- It ends, turn by turn, exactly where no operator of the tier comes next any more. -/
  ends : ∀ x y d, Reader.Ends (chainRest v tier x c) y d ↔
    Relation.ReflTransGen (Turn v tier) (x, c) (y, d) ∧
      ∀ entry ∈ v.operators.entries, entry.2.tier = tier → ¬ Begins (skip d.ahead) entry.1

/-- At a position the longest name decides. -/
structure MaximalMunch (v : Vocabulary) (c : Cursor) : Prop where
  operators : ∀ tier, Munches (fun entry => entry ∈ v.operators.entries ∧ entry.2.tier = tier)
    (Begins (skip c.ahead)) c (Scan.takeOperator v tier)
  chains : ∀ tier, Grammar.Chains v tier c
  functions : Munches (· ∈ v.functions.entries) (BeginsCall (skip c.ahead)) c (Scan.takeFunction v)
  /-- A function is passed up to its parenthesis. -/
  opening : ∀ entry, ((Scan.takeFunction v).run c).1 = some entry →
    ((Scan.takeFunction v).run c).2.ahead.head? = some '('
  isFunction : Notices (· ∈ v.functions.entries) (BeginsCall (skip c.ahead)) c (Scan.isFunction v)
  constants : Munches (· ∈ v.constants.entries) (Begins (skip c.ahead)) c (Scan.takeConstant v)
  isConstant : Notices (· ∈ v.constants.entries) (Begins (skip c.ahead)) c (Scan.isConstant v)
  /-- Of two names of one length at most one comes next. -/
  apart : ∀ a b : String, a ≠ b → a.length = b.length →
    ¬ (Begins (skip c.ahead) a ∧ Begins (skip c.ahead) b)
  untied : Scan.Untied v c
  agrees : Scan.Agrees v c

section

variable {v : Vocabulary} (wellFormed : v.WellFormed) (c : Cursor)
include wellFormed

theorem scan_agrees : Scan.Agrees v c where
  takeOperator := wellFormed.takeOperator_run c
  takeFunction := wellFormed.takeFunction_run c
  takeConstant := wellFormed.takeConstant_run c
  isFunction := wellFormed.isFunction_run c
  isConstant := wellFormed.isConstant_run c

theorem scan_untied : Scan.Untied v c where
  operators tier listing listed same := by
    rw [Scan.findM?_accept_run, wellFormed.takeOperator_outcome]
    simp only [← Scan.lookahead_one]
    exact congrArg (Scan.outcome c) (find?_of_perm (c.lookahead [·])
      (longerFirst_of_sorted (wellFormed.operatorsOf_sorted tier)) listed same
      fun _ => lookahead_name_iff.1)
  functions listing listed same := by
    rw [Scan.take_run, Scan.takeFunction, Scan.take_run]
    exact congrArg (Scan.outcome c) (find?_of_perm (c.lookahead [·, "("])
      (longerFirst_of_sorted wellFormed.functions.1) listed same
      fun _ found => (lookahead_call_iff.1 found).begins)
  constants listing listed same := by
    rw [Scan.take_run, Scan.takeConstant, Scan.take_run]
    exact congrArg (Scan.outcome c) (find?_of_perm (c.lookahead [·])
      (longerFirst_of_sorted wellFormed.constants.1) listed same fun _ => lookahead_name_iff.1)

theorem Grammar.chains (tier : Tier) : Chains v tier c where
  goes entry d passed x := by
    rw [wellFormed.takeOperator_run] at passed
    cases found : v.takeOperator? tier c with
    | none =>
      rw [found] at passed
      cases passed
    | some taken =>
      rw [found] at passed
      cases passed
      exact ⟨_, chainRest_of_taken found x⟩
  stops x := by
    rw [← takeOperator?_eq_none_iff wellFormed]
    constructor
    · intro stopped
      have ends : Reader.Ends (chainRest v tier x c) x c := stopped ▸ .done
      exact ((ends_chainRest_iff wellFormed).1 ends).2
    · exact fun missed => chainRest_of_missed missed x
  ends x y d := by
    rw [← takeOperator?_eq_none_iff wellFormed]
    exact ends_chainRest_iff wellFormed

end

/-- At every position the longest declared name is taken. -/
theorem Vocabulary.Reachable.maximalMunch {v : Vocabulary} (reachable : v.Reachable) (c : Cursor) :
    MaximalMunch v c where
  operators := takeOperator_munches reachable.wellFormed c
  chains := Grammar.chains reachable.wellFormed c
  functions := takeFunction_munches reachable.wellFormed c
  opening _ := head?_of_takeFunction reachable.wellFormed c
  isFunction := notices_of_munches (takeFunction_munches reachable.wellFormed c)
  constants := takeConstant_munches reachable.wellFormed c
  isConstant := notices_of_munches (takeConstant_munches reachable.wellFormed c)
  apart _ _ apart equal both := apart (eq_of_prefix_of_length_eq both.1 both.2 equal)
  untied := scan_untied reachable.wellFormed c
  agrees := scan_agrees reachable.wellFormed c

/-- Of the shifts that the text begins with, the longer one is taken. -/
theorem maximalMunch_shift :
    Standard.vocabulary.Reachable ∧
      MaximalMunch Standard.vocabulary (.ofString " >>> 2") ∧
        ((Scan.takeOperator Standard.vocabulary .factor).run (.ofString " >>> 2")).1.map (·.1) =
          some ">>>" :=
  ⟨.standard, Vocabulary.Reachable.maximalMunch .standard _, by decide +kernel⟩

end Calculator
