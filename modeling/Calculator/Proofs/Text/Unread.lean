import Calculator.Evaluation.Grammar
import Mathlib

/-!
# Unread text

Reading never looks back, so what a position leaves unread settles everything that
follows it. Here the operations of a cursor are stated on the unread text alone,
and the names of a table are tried on it. A text that continues behind a reserved
character gives the same answers as the text up to that character.
-/
namespace Calculator.Unread

/-- The text from its first character that is not ignored. -/
def skip (text : List Char) : List Char := text.dropWhile Character.isIgnored

/-- What is unread behind a literal and the ignored characters around it. -/
def accept? (literal : String) (text : List Char) : Option (List Char) :=
  (Cursor.after? literal.toList (skip text)).map skip

/-- Whether a sign or an opening parenthesis comes next. -/
def startsGroup (text : List Char) : Bool :=
  (skip text).head?.any fun c => Character.isSign c || c = '('

/-! ## Ignored characters -/

@[simp] theorem skipIgnored_ahead (c : Cursor) : c.skipIgnored.ahead = skip c.ahead := rfl

@[simp] theorem skip_nil : skip [] = [] := rfl

theorem skip_gap {gap : List Char} (ignored : gap.all Character.isIgnored = true)
    (text : List Char) : skip (gap ++ text) = skip text := by
  rw [skip, List.dropWhile_append_of_pos (by simpa using ignored), skip]

theorem skip_cons {c : Char} (kept : Character.isIgnored c = false) (text : List Char) :
    skip (c :: text) = c :: text := by
  simp [skip, kept]

/-- A text is a run of ignored characters and what follows it. -/
theorem exists_gap (text : List Char) :
    ∃ gap, gap.all Character.isIgnored = true ∧ text = gap ++ skip text :=
  ⟨text.takeWhile Character.isIgnored, List.all_takeWhile, List.takeWhile_append_dropWhile.symm⟩

/-- What follows the ignored characters does not begin with one. -/
theorem isIgnored_of_skip_eq_cons {text rest : List Char} {c : Char} (h : skip text = c :: rest) :
    Character.isIgnored c = false := by
  have kept := List.head?_dropWhile_not Character.isIgnored text
  rw [skip] at h
  rw [h] at kept
  simpa using kept

@[simp] theorem skip_skip (text : List Char) : skip (skip text) = skip text := by
  cases h : skip text with
  | nil => rfl
  | cons c rest => exact skip_cons (isIgnored_of_skip_eq_cons h) rest

theorem ne_nil_of_skip {text : List Char} (nonblank : skip text ≠ []) : text ≠ [] := by
  rintro rfl
  exact nonblank skip_nil

theorem skip_length_le (text : List Char) : (skip text).length ≤ text.length :=
  (List.dropWhile_suffix _).length_le

/-- A character that is not ignored ends every run of ignored ones. -/
theorem skip_append_cons (text : List Char) {stop : Char} (kept : Character.isIgnored stop = false)
    (rest : List Char) : skip (text ++ stop :: rest) = skip text ++ stop :: rest := by
  induction text with
  | nil => exact skip_cons kept rest
  | cons c text ih =>
    cases h : Character.isIgnored c
    · simp [skip, h]
    · simpa [skip, h] using ih

/-- The first character of a text that begins with one of a class. -/
theorem exists_cons_of_head {p : Char → Bool} {text : List Char}
    (head : text.head?.any p = true) : ∃ c rest, text = c :: rest ∧ p c = true := by
  cases text with
  | nil => exact nomatch head
  | cons c rest => exact ⟨c, rest, rfl, head⟩

/-! ## Literals -/

theorem accept?_eq_some_iff {literal : String} {text left : List Char} :
    accept? literal text = some left ↔
      ∃ behind, skip text = literal.toList ++ behind ∧ left = skip behind := by
  simp only [accept?, Option.map_eq_some_iff, Cursor.after?_eq_some_iff]
  exact exists_congr fun behind => and_congr_right fun _ => eq_comm

theorem accept?_eq_none_iff {literal : String} {text : List Char} :
    accept? literal text = none ↔ ∀ behind, skip text ≠ literal.toList ++ behind := by
  rw [Option.eq_none_iff_forall_ne_some]
  constructor
  · intro none behind split
    exact none _ (accept?_eq_some_iff.2 ⟨behind, split, rfl⟩)
  · rintro none left found
    obtain ⟨behind, split, -⟩ := accept?_eq_some_iff.1 found
    exact none behind split

theorem accept?_congr {text other : List Char} (same : skip text = skip other) (literal : String) :
    accept? literal text = accept? literal other := by
  rw [accept?, same, accept?]

/-- Accepting a literal that is not empty leaves less to be read. -/
theorem accept?_length_lt {literal : String} {text left : List Char}
    (accepted : accept? literal text = some left) (nonempty : literal.toList ≠ []) :
    left.length < text.length := by
  obtain ⟨behind, ahead, rfl⟩ := accept?_eq_some_iff.1 accepted
  have before := skip_length_le text
  have after := skip_length_le behind
  have positive := List.length_pos_iff.2 nonempty
  rw [ahead, List.length_append] at before
  omega

/-- Accepting a literal at a position is accepting it in the unread text. -/
theorem accept?_ahead (c : Cursor) (literal : String) :
    (c.accept? literal).map (·.ahead) = accept? literal c.ahead := by
  simp only [Cursor.accept?, Cursor.skipIgnored, accept?, skip, Option.map_map]
  rfl

/-- One literal is looked for in the unread text. -/
theorem lookahead_singleton (c : Cursor) (literal : String) :
    c.lookahead [literal] = (accept? literal c.ahead).isSome := by
  rw [← accept?_ahead, Option.isSome_map]
  cases h : c.accept? literal <;> simp [Cursor.lookahead, h]

/-- A literal of one character comes next when that character does. -/
theorem accept?_char {literal : String} {c : Char} (one : literal.toList = [c])
    (text : List Char) :
    (accept? literal text).isSome = ((skip text).head? == some c) := by
  rw [Bool.eq_iff_iff, Option.isSome_iff_exists, beq_iff_eq]
  simp only [accept?_eq_some_iff, one, List.cons_append, List.nil_append, List.head?_eq_some_iff]
  constructor
  · rintro ⟨_, behind, split, _⟩
    exact ⟨behind, split⟩
  · rintro ⟨behind, split⟩
    exact ⟨_, behind, split, rfl⟩

theorem startsGroup_ahead (c : Cursor) : Grammar.startsGroup c = startsGroup c.ahead := by
  simp only [Grammar.startsGroup, lookahead_singleton, startsGroup]
  rw [accept?_char (show "+".toList = ['+'] from rfl), accept?_char (show "-".toList = ['-'] from rfl),
    accept?_char (show "(".toList = ['('] from rfl)]
  cases (skip c.ahead).head? <;> simp [Character.isSign, Bool.beq_eq_decide_eq]

end Calculator.Unread
