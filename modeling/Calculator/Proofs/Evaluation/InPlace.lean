import Calculator.Proofs.Evaluation.Outcome
import Calculator.Proofs.Vocabulary.WellFormed

/-!
# Trees in place

A declared name holds no reserved character. So what is read from a whole text is read
from it in the same way where a closing parenthesis or a comma follows it.
-/
namespace Calculator
open Unread

/-- A character that closes a part of an expression. -/
def Closes (c : Char) : Prop := c = ')' ∨ c = ','

theorem Closes.isReserved {c : Char} (closes : Closes c) : Character.isReserved c = true := by
  rcases closes with rfl | rfl <;> decide

theorem Closes.ne_open {c : Char} (closes : Closes c) : c ≠ '(' := by
  rcases closes with rfl | rfl <;> decide

theorem Closes.isSign {c : Char} (closes : Closes c) : Character.isSign c = false := by
  rcases closes with rfl | rfl <;> decide

theorem Closes.kept {c : Char} (closes : Closes c) : Character.isIgnored c = false :=
  isIgnored_of_isReserved closes.isReserved

section

variable {v : Vocabulary} {stop : Char} {text named left : List Char}

/-! ## What comes next -/

theorem skip_append_of_cons (closes : Closes stop) {c : Char} {behind : List Char}
    (ahead : skip text = c :: behind) (rest : List Char) :
    skip (text ++ stop :: rest) = c :: (behind ++ stop :: rest) := by
  rw [skip_append_cons text closes.kept, ahead, List.cons_append]

theorem Unread.Signed.append {sign : Option Char} (signed : Signed sign text named)
    (closes : Closes stop) (rest : List Char) :
    Signed sign (text ++ stop :: rest) (named ++ stop :: rest) := by
  cases sign with
  | none =>
    obtain ⟨rfl, c, behind, ahead, other, unsigned⟩ := signed
    exact ⟨(skip_append_cons text closes.kept rest).symm, c, _,
      skip_append_of_cons closes ahead rest, other, unsigned⟩
  | some sign =>
    obtain ⟨isSign, behind, ahead, rfl⟩ := signed
    exact ⟨isSign, _, skip_append_of_cons closes ahead rest,
      (skip_append_cons behind closes.kept rest).symm⟩

theorem Grammar.EndsNumber.append (ends : Grammar.EndsNumber text) (closes : Closes stop)
    (rest : List Char) : Grammar.EndsNumber (text ++ stop :: rest) := by
  cases text with
  | nil =>
    rintro c ⟨⟩
    rcases closes with rfl | rfl <;> decide
  | cons c behind => exact ends

theorem operatorAt?_append (wellFormed : v.WellFormed) (closes : Closes stop) (tier : Tier)
    (text rest : List Char) :
    v.operatorAt? tier (text ++ stop :: rest) =
      (v.operatorAt? tier text).map fun (name, op, left) => (name, op, left ++ stop :: rest) :=
  first?_append closes.kept (fun _ => rfl) fun entry listed =>
    wellFormed.operators.free closes.isReserved entry (Vocabulary.mem_operatorsOf_iff.1 listed).1

theorem functionAt?_append (wellFormed : v.WellFormed) (closes : Closes stop)
    (text rest : List Char) :
    v.functionAt? (text ++ stop :: rest) =
      (v.functionAt? text).map fun (name, f, left) => (name, f, left ++ stop :: rest) :=
  first?_append closes.kept (opensParenthesis_append closes.kept closes.ne_open)
    (wellFormed.functions.free closes.isReserved)

theorem constantAt?_append (wellFormed : v.WellFormed) (closes : Closes stop)
    (text rest : List Char) :
    v.constantAt? (text ++ stop :: rest) =
      (v.constantAt? text).map fun (name, value, left) => (name, value, left ++ stop :: rest) :=
  first?_append closes.kept (fun _ => rfl) (wellFormed.constants.free closes.isReserved)

end

/-! ## Trees -/

mutual

/-- A tree is read in front of what closes it as at the end of a text. -/
theorem Tree.Reads.inPlace {v : Vocabulary} (wellFormed : v.WellFormed) {stop : Char}
    (closes : Closes stop) (rest : List Char) (t : Tree) {text left : List Char}
    (reads : t.Reads v text left) : t.Reads v (text ++ stop :: rest) (left ++ stop :: rest) := by
  match t with
  | .chain tier first links =>
    obtain ⟨between, firstReads, linksRead⟩ := reads
    exact ⟨_, Tree.Reads.inPlace wellFormed closes rest first firstReads,
      Links.Reads.inPlace wellFormed closes rest links linksRead⟩
  | .group inner =>
    obtain ⟨opened, closed, ahead, innerReads, close⟩ := reads
    exact ⟨_, _, skip_append_of_cons closes ahead rest,
      Tree.Reads.inPlace wellFormed closes rest inner innerReads,
      skip_append_of_cons closes close rest⟩
  | .call sign name f arguments =>
    obtain ⟨named, behind, opened, signed, found, parenthesis, argumentsRead⟩ := reads
    refine ⟨_, behind ++ stop :: rest, _, signed.append closes rest, ?_,
      skip_append_of_cons closes parenthesis rest,
      Arguments.Reads.inPlace wellFormed closes rest arguments argumentsRead⟩
    rw [functionAt?_append wellFormed closes, found]
    rfl
  | .constant sign name value =>
    obtain ⟨named, signed, noFunction, found⟩ := reads
    refine ⟨_, signed.append closes rest, ?_, ?_⟩
    · rw [functionAt?_append wellFormed closes, noFunction, Option.map_none]
    · rw [constantAt?_append wellFormed closes, found]
      rfl
  | .numeral sign ds =>
    obtain ⟨named, signed, noFunction, noConstant, split, ends⟩ := reads
    refine ⟨_, signed.append closes rest, ?_, ?_, ?_, ends.append closes rest⟩
    · rw [functionAt?_append wellFormed closes, noFunction, Option.map_none]
    · rw [constantAt?_append wellFormed closes, noConstant, Option.map_none]
    · rw [split, List.append_assoc]
  | .signed sign inner =>
    obtain ⟨named, signed, noFunction, noConstant, group, innerReads⟩ := reads
    refine ⟨_, signed.append closes rest, ?_, ?_, ?_,
      Tree.Reads.inPlace wellFormed closes rest inner innerReads⟩
    · rw [functionAt?_append wellFormed closes, noFunction, Option.map_none]
    · rw [constantAt?_append wellFormed closes, noConstant, Option.map_none]
    · rw [startsGroup_append closes.kept ⟨closes.isSign, closes.ne_open⟩, group]

theorem Links.Reads.inPlace {v : Vocabulary} (wellFormed : v.WellFormed) {stop : Char}
    (closes : Closes stop) (rest : List Char) (links : Links) {tier : Tier}
    {text left : List Char} (reads : links.Reads v tier text left) :
    links.Reads v tier (text ++ stop :: rest) (left ++ stop :: rest) := by
  match links with
  | .nil =>
    obtain ⟨none, rfl⟩ := reads
    refine ⟨?_, rfl⟩
    rw [operatorAt?_append wellFormed closes, none, Option.map_none]
  | .cons name op right others =>
    obtain ⟨behind, between, found, rightReads, othersRead⟩ := reads
    refine ⟨behind ++ stop :: rest, _, ?_,
      Tree.Reads.inPlace wellFormed closes rest right rightReads,
      Links.Reads.inPlace wellFormed closes rest others othersRead⟩
    rw [operatorAt?_append wellFormed closes, found]
    rfl

theorem Arguments.Reads.inPlace {v : Vocabulary} (wellFormed : v.WellFormed) {stop : Char}
    (closes : Closes stop) (rest : List Char) (arguments : Arguments) {opened left : List Char}
    (reads : arguments.Reads v opened left) :
    arguments.Reads v (opened ++ stop :: rest) (left ++ stop :: rest) := by
  match arguments with
  | .nil => exact skip_append_of_cons closes reads rest
  | .cons first others =>
    obtain ⟨more, between, firstReads, othersRead⟩ := reads
    refine ⟨fun behind close => ?_, _, Tree.Reads.inPlace wellFormed closes rest first firstReads,
      Arguments.Continue.inPlace wellFormed closes rest others othersRead⟩
    obtain ⟨c, others, ahead⟩ := List.exists_cons_of_ne_nil firstReads.nonblank
    rw [skip_append_of_cons closes ahead rest] at close
    obtain ⟨rfl, -⟩ := List.cons.inj close
    exact more others ahead

theorem Arguments.Continue.inPlace {v : Vocabulary} (wellFormed : v.WellFormed) {stop : Char}
    (closes : Closes stop) (rest : List Char) (others : Arguments) {text left : List Char}
    (reads : others.Continue v text left) :
    others.Continue v (text ++ stop :: rest) (left ++ stop :: rest) := by
  match others with
  | .nil => exact skip_append_of_cons closes reads rest
  | .cons first others =>
    obtain ⟨behind, between, comma, firstReads, othersRead⟩ := reads
    exact ⟨_, _, skip_append_of_cons closes comma rest,
      Tree.Reads.inPlace wellFormed closes rest first firstReads,
      Arguments.Continue.inPlace wellFormed closes rest others othersRead⟩

end

/-- A whole expression in parentheses is read as a group. -/
theorem Tree.Reads.group {v : Vocabulary} (wellFormed : v.WellFormed) {t : Tree}
    {text left : List Char} (reads : t.Reads v text left) (ended : skip left = [])
    (after : List Char) : (Tree.group t).Reads v ('(' :: (text ++ ')' :: after)) after := by
  have closes : Closes ')' := .inl rfl
  refine ⟨text ++ ')' :: after, left ++ ')' :: after, skip_cons (by decide) _,
    Tree.Reads.inPlace wellFormed closes after t reads, ?_⟩
  rw [skip_append_cons left closes.kept, ended, List.nil_append]

end Calculator
