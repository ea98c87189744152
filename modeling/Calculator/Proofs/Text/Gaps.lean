import Calculator.Proofs.Vocabulary.Choice

/-!
# Gaps between words

A gap is a maximal run of ignored characters. In the normal form of a text each gap is one
space and there is none at the ends; in its tight form there is none at the end. Where no
name holds an ignored character, what comes next in a text is what comes next in its normal
form, and what is left unread of both has one tight form.
-/
namespace Calculator.Unread

/-- One space for each gap: the last character of the gap stands for all of them. -/
def collapse : List Char → List Char
  | [] => []
  | c :: rest =>
    if Character.isIgnored c then
      if rest.head?.any Character.isIgnored then collapse rest else ' ' :: collapse rest
    else c :: collapse rest

/-- Without the spaces at both ends. -/
def trimmed (text : List Char) : List Char :=
  (text.dropWhile (· = ' ')).rdropWhile (· = ' ')

/-- One space for each gap, and none at the end. -/
def tight (text : List Char) : List Char := (collapse text).rdropWhile (· = ' ')

/-- One space for each gap, and none at the ends. -/
def normal (text : List Char) : List Char := tight (skip text)

/-! ## The tight form, character by character -/

theorem rdropWhile_cons {α : Type} (p : α → Bool) (a : α) (rest : List α) :
    (a :: rest).rdropWhile p =
      if rest.rdropWhile p = [] then (if p a then [] else [a]) else a :: rest.rdropWhile p := by
  by_cases blank : rest.rdropWhile p = []
  · rw [if_pos blank]
    rw [List.rdropWhile, List.reverse_eq_nil_iff] at blank
    rw [List.rdropWhile, List.reverse_cons, List.dropWhile_append, blank]
    cases holds : p a <;> simp [holds]
  · rw [if_neg blank]
    rw [List.rdropWhile, List.reverse_eq_nil_iff] at blank
    simp [List.rdropWhile, List.dropWhile_append, blank]

theorem ne_space {c : Char} (kept : Character.isIgnored c = false) : c ≠ ' ' := by
  rintro rfl
  cases kept

theorem tight_cons {c : Char} (kept : Character.isIgnored c = false) (rest : List Char) :
    tight (c :: rest) = c :: tight rest := by
  rw [tight, collapse, if_neg (by simp [kept]), rdropWhile_cons, tight]
  by_cases blank : (collapse rest).rdropWhile (· = ' ') = []
  · simp [blank, ne_space kept]
  · simp [blank]

theorem tight_gap {c : Char} (ignored : Character.isIgnored c = true) (rest : List Char) :
    tight (c :: rest) =
      if rest.head?.any Character.isIgnored then tight rest
      else if tight rest = [] then [] else ' ' :: tight rest := by
  rw [tight, collapse, if_pos ignored]
  split
  · rfl
  · rw [rdropWhile_cons, tight]
    simp

/-- In front of a tight form that is not empty stands the space of a gap. -/
theorem tight_gap_head {c : Char} (ignored : Character.isIgnored c = true) (rest : List Char) :
    tight (c :: rest) = [] ∨ ∃ more, tight (c :: rest) = ' ' :: more := by
  induction rest generalizing c with
  | nil =>
    rw [tight_gap ignored]
    exact .inl rfl
  | cons d rest ih =>
    rw [tight_gap ignored]
    split
    · rename_i next
      exact ih next
    · split
      · exact .inl rfl
      · exact .inr ⟨_, rfl⟩

@[simp] theorem tight_nil : tight [] = [] := rfl

theorem skip_tight (text : List Char) : skip (tight text) = tight (skip text) := by
  induction text with
  | nil => rfl
  | cons c rest ih =>
    cases ignored : Character.isIgnored c with
    | false => rw [skip_cons ignored, tight_cons ignored, skip_cons ignored]
    | true =>
      have passed : skip (c :: rest) = skip rest := by simp [skip, ignored]
      rw [passed, ← ih, tight_gap ignored]
      split
      · rfl
      · split
        · rename_i blank
          rw [blank]
        · simp [skip, show Character.isIgnored ' ' = true from rfl]

theorem tight_tight (text : List Char) : tight (tight text) = tight text := by
  induction text with
  | nil => rfl
  | cons c rest ih =>
    cases ignored : Character.isIgnored c with
    | false => rw [tight_cons ignored, tight_cons ignored, ih]
    | true =>
      rw [tight_gap ignored]
      split
      · exact ih
      · split
        · rfl
        · rename_i next more
          -- What follows the gap begins with a character that is kept, and so does its tight form.
          cases rest with
          | nil => exact absurd rfl more
          | cons d others =>
            have kept : Character.isIgnored d = false := by simpa using next
            rw [tight_gap (show Character.isIgnored ' ' = true from rfl), ih, if_neg more]
            simp [tight_cons kept, kept]

theorem skip_normal (text : List Char) : skip (normal text) = normal text := by
  rw [normal, skip_tight, skip_skip]

theorem normal_normal (text : List Char) : normal (normal text) = normal text := by
  rw [normal, skip_normal, normal, tight_tight]

theorem normal_skip (text : List Char) : normal (skip text) = normal text := by
  rw [normal, skip_skip, normal]

theorem normal_of_tight {text other : List Char} (same : tight text = tight other) :
    normal text = normal other := by
  rw [normal, ← skip_tight, same, skip_tight, normal]

/-- The normal form is what is left when the gaps are collapsed and the ends are trimmed. -/
theorem trimmed_collapse (text : List Char) : trimmed (collapse text) = normal text := by
  have front : (collapse text).dropWhile (· = ' ') = collapse (skip text) := by
    induction text with
    | nil => rfl
    | cons c rest ih =>
      cases ignored : Character.isIgnored c with
      | false => simp [collapse, ignored, skip_cons ignored, ne_space ignored]
      | true =>
        have passed : skip (c :: rest) = skip rest := by simp [skip, ignored]
        rw [passed, collapse, if_pos ignored]
        split
        · exact ih
        · rw [List.dropWhile_cons_of_pos (by simp)]
          exact ih
  rw [trimmed, front, normal, tight]

/-! ## Two texts of one form -/

/-- A text that is empty or begins with a gap. -/
def Gapped (text : List Char) : Prop := ∀ c ∈ text.head?, Character.isIgnored c = true

/-- Texts of one tight form begin with the same character, or both with a gap. -/
theorem heads_of_tight {text other : List Char} (same : tight text = tight other) :
    (∃ c rest rest', Character.isIgnored c = false ∧ text = c :: rest ∧ other = c :: rest' ∧
      tight rest = tight rest') ∨ Gapped text ∧ Gapped other := by
  have kept_of : ∀ {c : Char} {rest other : List Char}, Character.isIgnored c = false →
      tight (c :: rest) = tight other → ∃ rest', other = c :: rest' ∧ tight rest = tight rest' := by
    intro c rest other kept same
    rw [tight_cons kept] at same
    cases other with
    | nil => cases same
    | cons d others =>
      cases ignored : Character.isIgnored d with
      | false =>
        rw [tight_cons ignored] at same
        obtain ⟨rfl, behind⟩ := List.cons.inj same
        exact ⟨others, rfl, behind⟩
      | true =>
        rcases tight_gap_head ignored others with blank | ⟨more, space⟩
        · exact nomatch same.trans blank
        · exact absurd (List.cons.inj (same.trans space)).1 (ne_space kept)
  cases text with
  | nil =>
    refine .inr ⟨nofun, fun c head => ?_⟩
    obtain ⟨rest, rfl⟩ := List.head?_eq_some_iff.1 head
    by_contra kept
    obtain ⟨rest', absurd, -⟩ := kept_of (eq_false_of_ne_true kept) same.symm
    cases absurd
  | cons c rest =>
    cases ignored : Character.isIgnored c with
    | false =>
      obtain ⟨rest', rfl, behind⟩ := kept_of ignored same
      exact .inl ⟨c, rest, rest', ignored, rfl, rfl, behind⟩
    | true =>
      refine .inr ⟨fun d head => by cases head; exact ignored, fun d head => ?_⟩
      obtain ⟨others, rfl⟩ := List.head?_eq_some_iff.1 head
      by_contra kept
      obtain ⟨rest', absurd, -⟩ := kept_of (eq_false_of_ne_true kept) same.symm
      cases absurd
      exact kept ignored

/-- Behind their gaps, texts of one normal form begin with the same character, or both are
    over. -/
theorem heads_of_normal {text other : List Char} (same : normal text = normal other) :
    (∃ c rest rest', skip text = c :: rest ∧ skip other = c :: rest' ∧ tight rest = tight rest') ∨
      skip text = [] ∧ skip other = [] := by
  have blank : ∀ {text : List Char}, Gapped (skip text) → skip text = [] := by
    intro text gapped
    cases ahead : skip text with
    | nil => rfl
    | cons c rest =>
      have ignored := gapped c (by rw [ahead]; rfl)
      rw [isIgnored_of_skip_eq_cons ahead] at ignored
      cases ignored
  rcases heads_of_tight same with ⟨c, rest, rest', -, first, second, behind⟩ | ⟨first, second⟩
  · exact .inl ⟨c, rest, rest', first, second, behind⟩
  · exact .inr ⟨blank first, blank second⟩

theorem exists_cons_of_normal {text other rest : List Char} {c : Char}
    (same : normal text = normal other) (begins : skip text = c :: rest) :
    ∃ rest', skip other = c :: rest' ∧ tight rest = tight rest' := by
  rcases heads_of_normal same with ⟨_, _, rest', first, second, behind⟩ | ⟨blank, -⟩
  · cases begins.symm.trans first
    exact ⟨rest', second, behind⟩
  · cases begins.symm.trans blank

theorem ne_cons_of_normal {text other : List Char} {c : Char} (same : normal text = normal other)
    (never : ∀ rest, skip text ≠ c :: rest) : ∀ rest, skip other ≠ c :: rest := by
  intro rest begins
  obtain ⟨rest', begins', -⟩ := exists_cons_of_normal same.symm begins
  exact never rest' begins'

/-! ## What comes next -/

/-- Whether a word holds no ignored character. -/
def isWhole (word : String) : Bool := word.toList.all fun c => !Character.isIgnored c

theorem after?_tight {word : List Char} (whole : word.all (fun c => !Character.isIgnored c) = true)
    (text : List Char) : Cursor.after? word (tight text) = (Cursor.after? word text).map tight := by
  induction word generalizing text with
  | nil => rfl
  | cons a word ih =>
    rw [List.all_cons, Bool.and_eq_true, Bool.not_eq_true'] at whole
    obtain ⟨kept, others⟩ := whole
    cases text with
    | nil => rfl
    | cons c rest =>
      cases ignored : Character.isIgnored c with
      | false =>
        rw [tight_cons ignored, Cursor.after?, Cursor.after?]
        split
        · exact ih others rest
        · rfl
      | true =>
        have differs : a ≠ c := by
          rintro rfl
          exact absurd (kept.symm.trans ignored) Bool.false_ne_true
        rw [Cursor.after?.eq_3, if_neg differs, Option.map_none]
        rcases tight_gap_head ignored rest with blank | ⟨more, space⟩
        · rw [blank]
          rfl
        · rw [space, Cursor.after?, if_neg (ne_space kept)]

/-- A word is accepted in the normal form of a text as in the text. -/
theorem accept?_normal {word : String} (whole : isWhole word = true) (text : List Char) :
    accept? word (normal text) = (accept? word text).map tight := by
  rw [accept?, skip_normal, normal, after?_tight whole, accept?, Option.map_map, Option.map_map]
  congr 1
  funext behind
  exact skip_tight behind

theorem opensParenthesis_tight (text : List Char) :
    opensParenthesis (tight text) = opensParenthesis text := by
  have same : skip (tight text) = skip (normal text) := by rw [skip_tight, skip_normal, normal]
  rw [opensParenthesis, accept?_congr same, accept?_normal (by decide), Option.isSome_map,
    opensParenthesis]

theorem startsGroup_of_normal {text other : List Char} (same : normal text = normal other) :
    startsGroup text = startsGroup other := by
  rcases heads_of_normal same with ⟨c, rest, rest', first, second, -⟩ | ⟨first, second⟩
  · rw [startsGroup, first, startsGroup, second]
    rfl
  · rw [startsGroup, first, startsGroup, second]

section

variable {α : Type} {fits : List Char → Bool} {entries : List (String × α)}

/-- The name that comes next in the normal form of a text is the one that comes next in it. -/
theorem first?_normal (fitting : ∀ left, fits (tight left) = fits left)
    (whole : ∀ entry ∈ entries, isWhole entry.1 = true) (text : List Char) :
    first? fits (normal text) entries =
      (first? fits text entries).map fun (name, declaration, left) =>
        (name, declaration, tight left) := by
  induction entries with
  | nil => rfl
  | cons entry others ih =>
    have later := ih fun other listed => whole other (List.mem_cons_of_mem _ listed)
    simp only [first?, List.findSome?_cons] at later ⊢
    rw [later, take?, accept?_normal (whole entry List.mem_cons_self), take?]
    by_cases empty : entry.1.toList = []
    · simp [empty]
    · cases accept? entry.1 text with
      | none => simp
      | some left => cases fit : fits left <;> simp [empty, Option.filter_some, fitting, fit]

end

end Calculator.Unread
