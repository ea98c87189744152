import Calculator.Error
import Calculator.Text.Character

/-!
A position in a text: the characters already passed, the most recent first, and
those still ahead. Literals are accepted with the ignored characters around
them; single characters are taken as they stand or past ignored ones. Nothing
here ever loses a character of the text.
-/
namespace Calculator

/-- A position in a text. -/
structure Cursor where
  /-- The characters before the position, the nearest first. -/
  passed : List Char
  /-- The characters after the position, the nearest first. -/
  ahead : List Char
deriving DecidableEq

namespace Cursor

/-- The position in no text at all. -/
def empty : Cursor := ⟨[], []⟩

def ofString (text : String) : Cursor := ⟨[], text.toList⟩

/-- The number of characters before the position. -/
def location (c : Cursor) : Nat := c.passed.length

/-- The whole text, whatever the position. -/
def text (c : Cursor) : List Char := c.passed.reverse ++ c.ahead

/-- The number of characters of the whole text. -/
def size (c : Cursor) : Nat := c.passed.length + c.ahead.length

/-- Whether the whole text is empty. -/
def isEmpty (c : Cursor) : Bool := c.passed.isEmpty && c.ahead.isEmpty

/-- Whether every character has been passed. -/
def isOver (c : Cursor) : Bool := c.ahead.isEmpty

def remaining (c : Cursor) : String := String.ofList c.ahead

/-- Passes the longest run of ignored characters. -/
def skipIgnored (c : Cursor) : Cursor :=
  ⟨(c.ahead.takeWhile Character.isIgnored).reverse ++ c.passed,
    c.ahead.dropWhile Character.isIgnored⟩

/-- The location of the next character that is not ignored. -/
def place (c : Cursor) : Nat := c.skipIgnored.location

/-- Passes one character, after a run of ignored ones if `skip` is set. At the
    end of the text the failure names the position reached. -/
def next (c : Cursor) (skip : Bool) : Except EvaluationError Char × Cursor :=
  let start := if skip then c.skipIgnored else c
  match start.ahead with
  | [] => (.error (.endOfInput start.location), start)
  | found :: rest => (.ok found, ⟨found :: start.passed, rest⟩)

/-- Moves back over one character; at the start nothing changes. -/
def retreat (c : Cursor) : Cursor :=
  match c.passed with
  | [] => c
  | last :: earlier => ⟨earlier, last :: c.ahead⟩

/-- What follows `literal` in `chars`, if they begin with it. -/
def after? : (literal chars : List Char) → Option (List Char)
  | [], chars => some chars
  | _ :: _, [] => none
  | a :: literal, c :: chars => if a = c then after? literal chars else none

/-- Passes a literal together with the ignored characters before and after it,
    if it comes next. -/
def accept? (c : Cursor) (literal : String) : Option Cursor :=
  let start := c.skipIgnored
  (after? literal.toList start.ahead).map fun rest =>
    skipIgnored ⟨literal.toList.reverse ++ start.passed, rest⟩

/-- Whether the literals come next, one after another. -/
def lookahead (c : Cursor) : (literals : List String) → Bool
  | [] => true
  | literal :: literals =>
    match c.accept? literal with
    | none => false
    | some rest => rest.lookahead literals

/-! ## The text is kept, and only `retreat` moves back -/

theorem after?_eq_some_iff (literal chars rest : List Char) :
    after? literal chars = some rest ↔ chars = literal ++ rest := by
  induction literal generalizing chars with
  | nil => simp [after?]
  | cons a literal ih =>
    cases chars with
    | nil => simp [after?]
    | cons c chars =>
      by_cases h : a = c
      · simp [after?, h, ih]
      · simp [after?, h, Ne.symm h]

theorem skipIgnored_text (c : Cursor) : c.skipIgnored.text = c.text := by
  simp [skipIgnored, text]

theorem skipIgnored_ahead_le (c : Cursor) : c.skipIgnored.ahead.length ≤ c.ahead.length :=
  (List.dropWhile_suffix _).length_le

theorem next_text (c : Cursor) (skip : Bool) : (c.next skip).2.text = c.text := by
  have kept : (if skip then c.skipIgnored else c).text = c.text := by
    cases skip <;> simp [skipIgnored_text]
  rw [← kept]
  unfold next
  generalize (if skip then c.skipIgnored else c) = start
  obtain ⟨passed, ahead⟩ := start
  cases ahead <;> simp [text]

theorem next_ahead_le (c : Cursor) (skip : Bool) :
    (c.next skip).2.ahead.length ≤ c.ahead.length := by
  have skipped : (if skip then c.skipIgnored else c).ahead.length ≤ c.ahead.length := by
    cases skip <;> simp [skipIgnored_ahead_le]
  refine Nat.le_trans ?_ skipped
  unfold next
  generalize (if skip then c.skipIgnored else c) = start
  obtain ⟨passed, ahead⟩ := start
  cases ahead <;> simp

theorem next_ahead_lt {c d : Cursor} {skip : Bool} {found : Char}
    (h : c.next skip = (.ok found, d)) : d.ahead.length < c.ahead.length := by
  have skipped : (if skip then c.skipIgnored else c).ahead.length ≤ c.ahead.length := by
    cases skip <;> simp [skipIgnored_ahead_le]
  refine Nat.lt_of_lt_of_le ?_ skipped
  unfold next at h
  generalize (if skip then c.skipIgnored else c) = start at h
  obtain ⟨passed, ahead⟩ := start
  cases ahead with
  | nil => simp at h
  | cons a rest =>
    obtain ⟨-, rfl⟩ := Prod.mk.injEq .. ▸ h
    simp

/-- Taking a character and moving back ends before the character. -/
theorem retreat_ahead_le {c d : Cursor} {skip : Bool} {found : Char}
    (h : c.next skip = (.ok found, d)) : d.retreat.ahead.length ≤ c.ahead.length := by
  have moved := next_ahead_lt h
  have back : d.retreat.ahead.length ≤ d.ahead.length + 1 := by
    obtain ⟨passed, ahead⟩ := d
    cases passed <;> simp [retreat]
  omega

theorem retreat_text (c : Cursor) : c.retreat.text = c.text := by
  obtain ⟨passed, ahead⟩ := c
  cases passed <;> simp [retreat, text]

theorem accept?_text {c d : Cursor} {literal : String} (h : c.accept? literal = some d) :
    d.text = c.text := by
  simp only [accept?, Option.map_eq_some_iff] at h
  obtain ⟨rest, split, rfl⟩ := h
  rw [after?_eq_some_iff] at split
  rw [skipIgnored_text, ← skipIgnored_text c]
  simp [text, split]

/-- Accepting a literal passes all of its characters. -/
theorem accept?_ahead_add_le {c d : Cursor} {literal : String} (h : c.accept? literal = some d) :
    literal.toList.length + d.ahead.length ≤ c.ahead.length := by
  simp only [accept?, Option.map_eq_some_iff] at h
  obtain ⟨rest, split, rfl⟩ := h
  rw [after?_eq_some_iff] at split
  have before := skipIgnored_ahead_le c
  have behind := skipIgnored_ahead_le ⟨literal.toList.reverse ++ c.skipIgnored.passed, rest⟩
  simp only [split, List.length_append] at before
  simp only at behind
  omega

/-- Accepting a literal that is not empty moves forward. -/
theorem accept?_ahead_lt {c d : Cursor} {literal : String} (h : c.accept? literal = some d)
    (nonempty : literal.toList ≠ []) : d.ahead.length < c.ahead.length := by
  have moved := accept?_ahead_add_le h
  have positive := List.length_pos_iff.2 nonempty
  omega

theorem accept?_ahead_le {c d : Cursor} {literal : String} (h : c.accept? literal = some d) :
    d.ahead.length ≤ c.ahead.length := by
  have moved := accept?_ahead_add_le h
  omega

end Cursor

end Calculator
