import Calculator.Proofs.Text.Unread

/-!
# The name that comes next

Which operator, function or constant a position takes is settled by the unread
text: the first name of the listing that fits. In a listing with longer names
first that is the longest name that fits. A name holds no reserved character, so
what stands behind one in the text has no say in the choice.
-/
namespace Calculator.Unread

variable {α : Type}

/-- A declared name, if it comes next and leaves a text that fits. An empty name
    comes nowhere. -/
def take? (fits : List Char → Bool) (text : List Char) (entry : String × α) :
    Option (String × α × List Char) :=
  if entry.1.toList = [] then none
  else ((accept? entry.1 text).filter fits).map fun left => (entry.1, entry.2, left)

/-- The first of the entries that comes next and leaves a text that fits. -/
def first? (fits : List Char → Bool) (text : List Char) (entries : List (String × α)) :
    Option (String × α × List Char) :=
  entries.findSome? (take? fits text)

/-- Whether an opening parenthesis comes next. -/
def opensParenthesis (text : List Char) : Bool := (accept? "(" text).isSome

end Calculator.Unread

namespace Calculator.Vocabulary
open Unread

/-- The operator of a tier that comes next, and what is unread behind it. -/
def operatorAt? (v : Vocabulary) (tier : Tier) (text : List Char) :
    Option (String × Operator × List Char) :=
  first? (fun _ => true) text (v.operatorsOf tier)

/-- The function that comes next in front of an opening parenthesis, and what is
    unread behind its name. -/
def functionAt? (v : Vocabulary) (text : List Char) : Option (String × Function × List Char) :=
  first? opensParenthesis text v.functions.entries

/-- The constant that comes next, and what is unread behind it. -/
def constantAt? (v : Vocabulary) (text : List Char) : Option (String × Float × List Char) :=
  first? (fun _ => true) text v.constants.entries

end Calculator.Vocabulary

namespace Calculator.Unread

variable {α : Type}

theorem take?_eq_some_iff {fits : List Char → Bool} {text left : List Char} {entry : String × α}
    {name : String} {declaration : α} :
    take? fits text entry = some (name, declaration, left) ↔
      entry = (name, declaration) ∧ name.toList ≠ [] ∧ accept? name text = some left ∧
        fits left = true := by
  obtain ⟨other, declared⟩ := entry
  by_cases empty : other.toList = []
  · simp only [take?, empty, if_true, Prod.mk.injEq]
    constructor
    · simp
    · rintro ⟨⟨rfl, -⟩, nonempty, -⟩
      exact absurd empty nonempty
  · simp only [take?, empty, if_false, Option.map_eq_some_iff, Option.filter_eq_some_iff,
      Prod.mk.injEq]
    constructor
    · rintro ⟨_, ⟨accepted, fit⟩, rfl, rfl, rfl⟩
      exact ⟨⟨rfl, rfl⟩, empty, accepted, fit⟩
    · rintro ⟨⟨rfl, rfl⟩, -, accepted, fit⟩
      exact ⟨left, ⟨accepted, fit⟩, rfl, rfl, rfl⟩

theorem take?_eq_none_iff {fits : List Char → Bool} {text : List Char} {entry : String × α} :
    take? fits text entry = none ↔
      entry.1.toList = [] ∨ ∀ left, accept? entry.1 text = some left → fits left = false := by
  by_cases empty : entry.1.toList = []
  · simp [take?, empty]
  · simp [take?, empty, Option.filter_eq_none_iff]

theorem opensParenthesis_iff {text : List Char} :
    opensParenthesis text = true ↔ ∃ opened, skip text = '(' :: opened := by
  rw [opensParenthesis, accept?_char (show "(".toList = ['('] from rfl), beq_iff_eq,
    List.head?_eq_some_iff]

/-- A name that is taken is one of the entries. -/
theorem of_first?_eq_some {fits : List Char → Bool} {text left : List Char}
    {entries : List (String × α)} {name : String} {declaration : α}
    (found : first? fits text entries = some (name, declaration, left)) :
    (name, declaration) ∈ entries ∧ name.toList ≠ [] ∧ accept? name text = some left ∧
      fits left = true := by
  rw [first?, List.findSome?_eq_some_iff] at found
  obtain ⟨before, entry, after, rfl, taken, -⟩ := found
  obtain ⟨rfl, facts⟩ := take?_eq_some_iff.1 taken
  exact ⟨List.mem_append_right _ List.mem_cons_self, facts⟩

/-- Nothing is taken at the end of a text. -/
theorem first?_eq_none_of_end {fits : List Char → Bool} {text : List Char}
    (ended : skip text = []) (entries : List (String × α)) : first? fits text entries = none := by
  rw [Option.eq_none_iff_forall_ne_some]
  rintro ⟨name, declaration, left⟩ found
  obtain ⟨-, nonempty, accepted, -⟩ := of_first?_eq_some found
  obtain ⟨behind, ahead, -⟩ := accept?_eq_some_iff.1 accepted
  rw [ended] at ahead
  exact nonempty (List.append_eq_nil_iff.1 ahead.symm).1

/-- Trying the names at a position is trying them on the unread text. -/
theorem takeFirst?_map (start : Cursor) (fits : Cursor → Bool) (fitting : List Char → Bool)
    (same : ∀ c, fits c = fitting c.ahead) (entries : List (String × α)) :
    (takeFirst? start fits entries).map (fun t => (t.name, t.declaration, t.cursor.ahead)) =
      first? fitting start.ahead entries := by
  induction entries with
  | nil => rfl
  | cons entry rest ih =>
    obtain ⟨name, declaration⟩ := entry
    rw [first?, List.findSome?_cons, ← first?, ← ih, takeFirst?]
    by_cases empty : name.toList = []
    · simp [empty, take?]
    · rw [dif_pos empty]
      have ahead := accept?_ahead start name
      split
      · rename_i rejected
        rw [rejected] at ahead
        simp [take?, ← ahead]
      · rename_i cursor accepted
        rw [accepted] at ahead
        by_cases fit : fits cursor = true
        · have fitted : fitting cursor.ahead = true := same cursor ▸ fit
          simp [take?, empty, ← ahead, fit, Option.filter_some, fitted]
        · have unfit : fitting cursor.ahead = false := by simpa [← same] using fit
          simp [take?, ← ahead, fit, Option.filter_some, unfit]

/-- Leading ignored characters make no difference. -/
theorem first?_congr {text other : List Char} (same : skip text = skip other)
    (fits : List Char → Bool) (entries : List (String × α)) :
    first? fits text entries = first? fits other entries := by
  have each : take? (α := α) fits text = take? fits other := by
    funext entry
    simp [take?, accept?_congr same]
  rw [first?, each, first?]

/-! ## The longest name -/

theorem prefix_of_accept? {name : String} {text left : List Char}
    (accepted : accept? name text = some left) : name.toList <+: skip text := by
  obtain ⟨behind, split, -⟩ := accept?_eq_some_iff.1 accepted
  exact ⟨behind, split.symm⟩

/-- Two names of one length that both come next are the same name. -/
theorem eq_of_prefix_of_length_eq {text : List Char} {a b : String} (first : a.toList <+: text)
    (second : b.toList <+: text) (equal : a.length = b.length) : a = b := by
  have lengths : a.toList.length = b.toList.length := by
    rw [String.length_toList, String.length_toList, equal]
  have same : a.toList = b.toList :=
    (List.prefix_of_prefix_length_le first second lengths.le).eq_of_length lengths
  exact String.toList_inj.1 same

/-- In a listing with longer names first, the longest name that fits is taken. -/
theorem first?_eq_some_of_longest {fits : List Char → Bool} {text left : List Char}
    {entries : List (String × α)} {name : String} {declaration : α}
    (sorted : entries.Pairwise fun a b => Table.Precedes a.1 b.1)
    (listed : (name, declaration) ∈ entries) (nonempty : name.toList ≠ [])
    (accepted : accept? name text = some left) (fit : fits left = true)
    (longest : ∀ entry ∈ entries, ∀ behind, accept? entry.1 text = some behind →
      fits behind = true → entry.1.length ≤ name.length) :
    first? fits text entries = some (name, declaration, left) := by
  obtain ⟨before, after, rfl⟩ := List.append_of_mem listed
  rw [first?, List.findSome?_eq_some_iff]
  refine ⟨before, (name, declaration), after, rfl,
    take?_eq_some_iff.2 ⟨rfl, nonempty, accepted, fit⟩, ?_⟩
  intro entry earlier
  rw [take?_eq_none_iff]
  refine .inr fun behind other => ?_
  by_contra fitted
  have short := longest entry (List.mem_append_left _ earlier) behind other (by simpa using fitted)
  have precedes : Table.Precedes entry.1 name :=
    (List.pairwise_append.1 sorted).2.2 entry earlier _ List.mem_cons_self
  rcases precedes with longer | ⟨equal, less⟩
  · omega
  · have same :=
      eq_of_prefix_of_length_eq (prefix_of_accept? other) (prefix_of_accept? accepted) equal
    rw [same] at less
    exact lt_irrefl _ less

/-- A word in front of a text is a part of the name there or goes on behind it. -/
theorem prefix_append_cases {word name after : List Char} (front : word <+: name ++ after) :
    word <+: name ∨ ∃ c more, word = name ++ c :: more ∧ after.head? = some c := by
  obtain ⟨behind, split⟩ := front
  rcases List.append_eq_append_iff.1 split with ⟨more, inside, -⟩ | ⟨more, others, rest⟩
  · exact .inl ⟨more, inside.symm⟩
  · cases more with
    | nil => exact .inl (by rw [others, List.append_nil])
    | cons c more => exact .inr ⟨c, more, others, by rw [rest]; rfl⟩

/-- Names that begin with characters of a class are taken only where one stands. -/
theorem first?_eq_none_of_head {fits : List Char → Bool} {text : List Char}
    {entries : List (String × α)} {p : Char → Bool}
    (heads : ∀ entry ∈ entries, entry.1.toList.head?.any p = true)
    (other : (skip text).head?.any p = false) : first? fits text entries = none := by
  rw [first?, List.findSome?_eq_none_iff]
  intro entry listed
  rw [take?_eq_none_iff]
  refine .inr fun left accepted => ?_
  obtain ⟨behind, ahead, -⟩ := accept?_eq_some_iff.1 accepted
  have head := heads entry listed
  rw [ahead] at other
  cases begins : entry.1.toList with
  | nil => simp [begins] at head
  | cons c rest =>
    rw [begins] at head other
    exact absurd (head.symm.trans other) nofun

/-! ## In front of a reserved character -/

variable {text rest : List Char} {stop : Char}

theorem isIgnored_of_isReserved {c : Char} (reserved : Character.isReserved c = true) :
    Character.isIgnored c = false := by
  rcases (Character.isReserved_iff c).1 reserved with rfl | rfl | rfl <;> decide

/-- A literal without the stop is accepted in front of it as at the end. -/
theorem accept?_append (kept : Character.isIgnored stop = false) {literal : String}
    (free : stop ∉ literal.toList) :
    accept? literal (text ++ stop :: rest) =
      (accept? literal text).map (· ++ stop :: rest) := by
  have split : ∀ left, Cursor.after? literal.toList (left ++ stop :: rest) =
      (Cursor.after? literal.toList left).map (· ++ stop :: rest) := by
    intro left
    revert free
    induction literal.toList generalizing left with
    | nil => intro _; rfl
    | cons c literal ih =>
      intro free
      rw [List.mem_cons, not_or] at free
      cases left with
      | nil => simp [Cursor.after?, Ne.symm free.1]
      | cons d left =>
        by_cases equal : c = d
        · simpa [Cursor.after?, equal] using ih left free.2
        · simp [Cursor.after?, equal]
  rw [accept?, skip_append_cons text kept, split, accept?, Option.map_map, Option.map_map]
  congr 1
  funext left
  exact skip_append_cons left kept rest

theorem first?_append (kept : Character.isIgnored stop = false) {fits : List Char → Bool}
    (fitting : ∀ left, fits (left ++ stop :: rest) = fits left) {entries : List (String × α)}
    (free : ∀ entry ∈ entries, stop ∉ entry.1.toList) :
    first? fits (text ++ stop :: rest) entries =
      (first? fits text entries).map fun (name, declaration, left) =>
        (name, declaration, left ++ stop :: rest) := by
  induction entries with
  | nil => rfl
  | cons entry others ih =>
    have later := ih fun e listed => free e (List.mem_cons_of_mem _ listed)
    simp only [first?, List.findSome?_cons] at later ⊢
    rw [later, take?, accept?_append kept (free entry List.mem_cons_self), take?]
    by_cases empty : entry.1.toList = []
    · simp [empty]
    · cases accept? entry.1 text with
      | none => simp
      | some left => cases fit : fits left <;> simp [empty, Option.filter_some, fitting, fit]

theorem opensParenthesis_append (kept : Character.isIgnored stop = false) (closes : stop ≠ '(')
    (left : List Char) : opensParenthesis (left ++ stop :: rest) = opensParenthesis left := by
  rw [opensParenthesis, accept?_append kept (by simpa using closes), Option.isSome_map,
    opensParenthesis]

theorem startsGroup_append (kept : Character.isIgnored stop = false)
    (closes : Character.isSign stop = false ∧ stop ≠ '(') (left : List Char) :
    startsGroup (left ++ stop :: rest) = startsGroup left := by
  rw [startsGroup, skip_append_cons left kept, startsGroup]
  cases skip left <;> simp [closes]

end Calculator.Unread
