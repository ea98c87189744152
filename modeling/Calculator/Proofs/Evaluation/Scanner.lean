import Calculator.Proofs.Vocabulary.Choice
import Calculator.Proofs.Vocabulary.WellFormed

/-!
# Scanning in steps

A scanner keeps one position and moves it in steps. Accepting a literal skips ignored
characters before it has seen the literal, and so has to move back when it misses; looking
ahead accepts and moves back always; a name is first looked for and then accepted once more.
Whatever a scanner takes is what is taken from its position at once, and its position is the
one left behind.
-/
namespace Calculator

/-- A step that reads the text at a position and may move the position. -/
abbrev Scan (α : Type) := StateM Cursor α

namespace Scan

variable {α : Type}

/-- Passes a number of characters. -/
def advance (count : Nat) : Scan Unit :=
  modify fun c => ⟨(c.ahead.take count).reverse ++ c.passed, c.ahead.drop count⟩

/-- Whether the literal comes next, character by character. -/
def startsWith (literal : String) : Scan Bool := do
  return literal.toList.isPrefixOf (← get).ahead

/-- Passes a literal with the ignored characters around it, if it comes next. -/
def accept (literal : String) : Scan Bool := do
  let saved ← get
  modify Cursor.skipIgnored
  if ← startsWith literal then
    advance literal.length
    modify Cursor.skipIgnored
    return true
  else
    set saved
    return false

/-- Whether the literals come next, one after another. -/
def lookahead (literals : List String) : Scan Bool := do
  let saved ← get
  let matched ← literals.allM accept
  set saved
  return matched

/-- The first entry whose name comes next in front of given literals. -/
def find (behind : List String) (entries : List (String × α)) : Scan (Option (String × α)) :=
  entries.findM? fun entry => lookahead (entry.1 :: behind)

/-- Passes the name of the first entry that is found, and not what stands behind it. -/
def take (behind : List String) (entries : List (String × α)) : Scan (Option (String × α)) := do
  match ← find behind entries with
  | none => return none
  | some entry =>
    let _ ← accept entry.1
    return some entry

def isFunction (v : Vocabulary) : Scan Bool := do
  return (← find ["("] v.functions.entries).isSome

def takeFunction (v : Vocabulary) : Scan (Option (String × Function)) :=
  take ["("] v.functions.entries

def isConstant (v : Vocabulary) : Scan Bool := do
  return (← find [] v.constants.entries).isSome

def takeConstant (v : Vocabulary) : Scan (Option (String × Float)) := take [] v.constants.entries

/-- Passes the name of the first operator of a tier that comes next, unless the text is over. -/
def takeOperator (v : Vocabulary) (tier : Tier) : Scan (Option (String × Operator)) := do
  if (← get).isOver then return none
  else (v.operatorsOf tier).findM? fun entry => accept entry.1

/-! ## Steps -/

variable {entries : List (String × α)} (c : Cursor)

/-- A literal that comes next is passed, and on a miss the position stays. -/
theorem accept_run (literal : String) :
    (accept literal).run c = ((c.accept? literal).isSome, (c.accept? literal).getD c) := by
  rw [Cursor.accept?, Unread.skipIgnored_ahead]
  cases split : Cursor.after? literal.toList (Unread.skip c.ahead) with
  | none =>
    have missed : ¬ literal.toList <+: Unread.skip c.ahead := by
      rintro ⟨behind, ahead⟩
      rw [(Cursor.after?_eq_some_iff _ _ _).2 ahead.symm] at split
      cases split
    simp [accept, startsWith, missed]
    rfl
  | some behind =>
    have ahead := (Cursor.after?_eq_some_iff _ _ _).1 split
    have found : literal.toList <+: Unread.skip c.ahead := ⟨behind, ahead.symm⟩
    have dropped : (Unread.skip c.ahead).drop literal.length = behind := by
      rw [ahead, ← String.length_toList, List.drop_left]
    have taken : (Unread.skip c.ahead).take literal.length = literal.toList := by
      rw [ahead, ← String.length_toList, List.take_left]
    simp [accept, startsWith, advance, found, dropped, taken]
    rfl

theorem allM_accept_run (literals : List String) :
    ((literals.allM accept).run c).1 = c.lookahead literals := by
  induction literals generalizing c with
  | nil => rfl
  | cons literal literals ih =>
    rw [List.allM, StateT.run_bind, accept_run, Cursor.lookahead]
    cases c.accept? literal with
    | none => rfl
    | some d => exact ih d

/-- Looking ahead leaves the position. -/
theorem lookahead_run (literals : List String) :
    (lookahead literals).run c = (c.lookahead literals, c) := by
  rw [← allM_accept_run]
  rfl

/-- Looking for a name leaves the position. -/
theorem find_run (behind : List String) :
    (find behind entries).run c =
      (entries.find? fun entry => c.lookahead (entry.1 :: behind), c) := by
  rw [find]
  induction entries with
  | nil => rfl
  | cons entry rest ih =>
    rw [List.findM?, StateT.run_bind, lookahead_run, List.find?_cons]
    cases c.lookahead (entry.1 :: behind) with
    | true => rfl
    | false => exact ih

/-- The entry that is taken, and the position behind its name. -/
def outcome (c : Cursor) : Option (String × α) → Option (String × α) × Cursor
  | none => (none, c)
  | some entry => (some entry, (c.accept? entry.1).getD c)

theorem take_run (behind : List String) :
    (take behind entries).run c =
      outcome c (entries.find? fun entry => c.lookahead (entry.1 :: behind)) := by
  rw [take, StateT.run_bind, find_run]
  cases entries.find? fun entry => c.lookahead (entry.1 :: behind) with
  | none => rfl
  | some entry => exact congrArg (fun step => (some entry, step.2)) (accept_run c entry.1)

/-- The first name that is accepted moves the position; names that are not leave it. -/
theorem findM?_accept_run :
    (entries.findM? fun entry => accept entry.1).run c =
      outcome c (entries.find? fun entry => (c.accept? entry.1).isSome) := by
  induction entries with
  | nil => rfl
  | cons entry rest ih =>
    rw [List.findM?, StateT.run_bind, accept_run, List.find?_cons]
    cases accepted : c.accept? entry.1 with
    | none => exact ih
    | some d => simp [outcome, accepted]; rfl

/-! ## What is taken at once -/

/-- What was taken and the position behind it; where nothing was taken, the position stays. -/
def ofTaken (c : Cursor) : Option (Taken α c) → Option (String × α) × Cursor
  | none => (none, c)
  | some taken => (some (taken.name, taken.declaration), taken.cursor)

/-- The entry that is found in front of given literals is the one that is taken. -/
theorem ofTaken_takeFirst? {fits : Cursor → Bool} {behind : List String}
    (same : ∀ d, fits d = d.lookahead behind) (nonempty : ∀ entry ∈ entries, entry.1.toList ≠ []) :
    ofTaken c (takeFirst? c fits entries) =
      outcome c (entries.find? fun entry => c.lookahead (entry.1 :: behind)) := by
  induction entries with
  | nil => rfl
  | cons entry rest ih =>
    obtain ⟨name, declaration⟩ := entry
    have later := ih fun entry listed => nonempty entry (List.mem_cons_of_mem _ listed)
    rw [takeFirst?, dif_pos (nonempty _ List.mem_cons_self), List.find?_cons, Cursor.lookahead]
    split
    · rename_i missed
      simp only [missed]
      exact later
    · rename_i d accepted
      simp only [accepted, ← same]
      cases fit : fits d with
      | true => simp [ofTaken, outcome, accepted]
      | false => exact later

theorem isSome_ofTaken (taken : Option (Taken α c)) : (ofTaken c taken).1.isSome = taken.isSome := by
  cases taken <;> rfl

theorem exists_of_ofTaken_eq_some {c d : Cursor} {found : Option (Taken α c)} {name : String} {x : α}
    (same : ofTaken c found = (some (name, x), d)) : ∃ forward, found = some ⟨name, x, d, forward⟩ := by
  cases found with
  | none => cases same
  | some taken =>
    cases same
    exact ⟨taken.forward, rfl⟩

theorem of_ofTaken_eq_none {c d : Cursor} {found : Option (Taken α c)}
    (same : ofTaken c found = (none, d)) : found = none ∧ d = c := by
  cases found with
  | none =>
    cases same
    exact ⟨rfl, rfl⟩
  | some taken => cases same

theorem outcome_fst (found : Option (String × α)) : (outcome c found).1 = found := by
  cases found <;> rfl

/-- At the end of the text only the empty literal comes next. -/
theorem accept?_of_isOver {c : Cursor} (ended : c.isOver = true) {literal : String}
    (nonempty : literal.toList ≠ []) : c.accept? literal = none := by
  have blank : c.ahead = [] := List.isEmpty_iff.1 ended
  obtain ⟨first, rest, split⟩ := List.exists_cons_of_ne_nil nonempty
  rw [Cursor.accept?, Unread.skipIgnored_ahead, blank, split]
  rfl

theorem lookahead_one (literal : String) : c.lookahead [literal] = (c.accept? literal).isSome := by
  rw [Cursor.lookahead]
  cases c.accept? literal <;> rfl

end Scan

/-! ## Scanners and rules -/

namespace Vocabulary.WellFormed
open Scan

variable {v : Vocabulary} (wellFormed : v.WellFormed) (c : Cursor)
include wellFormed

theorem takeFunction_run : (takeFunction v).run c = ofTaken c (v.takeFunction? c) := by
  rw [takeFunction, take_run]
  exact (ofTaken_takeFirst? c (fun _ => rfl) wellFormed.functions.nonempty).symm

theorem takeConstant_run : (takeConstant v).run c = ofTaken c (v.takeConstant? c) := by
  rw [takeConstant, take_run]
  exact (ofTaken_takeFirst? c (fun _ => rfl) wellFormed.constants.nonempty).symm

theorem operatorsOf_nonempty (tier : Tier) : ∀ entry ∈ v.operatorsOf tier, entry.1.toList ≠ [] :=
  fun entry listed => wellFormed.operators.nonempty entry (mem_operatorsOf_iff.1 listed).1

/-- At the end of the text no name comes next, so it makes no difference to look for the end. -/
theorem takeOperator_outcome (tier : Tier) : (takeOperator v tier).run c =
    outcome c ((v.operatorsOf tier).find? fun entry => c.lookahead [entry.1]) := by
  rw [takeOperator, StateT.run_bind]
  change StateT.run (if c.isOver = true then pure none else
    (v.operatorsOf tier).findM? fun entry => accept entry.1) c = _
  split
  · next ended =>
    have missed : (v.operatorsOf tier).find? (fun entry => c.lookahead [entry.1]) = none := by
      refine List.find?_eq_none.2 fun entry listed => ?_
      rw [lookahead_one, accept?_of_isOver ended (wellFormed.operatorsOf_nonempty tier entry listed)]
      exact Bool.false_ne_true
    rw [missed]
    rfl
  · simp only [lookahead_one]
    exact findM?_accept_run c

theorem takeOperator_run (tier : Tier) :
    (takeOperator v tier).run c = ofTaken c (v.takeOperator? tier c) := by
  rw [wellFormed.takeOperator_outcome]
  exact (ofTaken_takeFirst? c (fun _ => rfl) (wellFormed.operatorsOf_nonempty tier)).symm

/-- Looking for a function finds one exactly where one is taken. -/
theorem isFunction_run : (Scan.isFunction v).run c = (v.isFunction c, c) := by
  have found := congrArg (·.1.isSome) (wellFormed.takeFunction_run c)
  rw [takeFunction, take_run, outcome_fst, isSome_ofTaken] at found
  rw [Scan.isFunction, StateT.run_bind, find_run, Vocabulary.isFunction, ← found]
  rfl

/-- Looking for a constant finds one exactly where one is taken. -/
theorem isConstant_run : (Scan.isConstant v).run c = (v.isConstant c, c) := by
  have found := congrArg (·.1.isSome) (wellFormed.takeConstant_run c)
  rw [takeConstant, take_run, outcome_fst, isSome_ofTaken] at found
  rw [Scan.isConstant, StateT.run_bind, find_run, Vocabulary.isConstant, ← found]
  rfl

end Vocabulary.WellFormed

end Calculator
