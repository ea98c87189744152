import Calculator.Proofs.Evaluation.Derivation

/-!
# What is read is written

A tree that is read from a text stands in it token by token, with ignored characters
alone between the tokens. No part of the text is passed over or read twice.
-/
namespace Calculator
open Unread

/-! ## Tokens side by side -/

theorem Spaced.gap_append {gap text : List Char} {tokens : List (List Char)}
    (ignored : gap.all Character.isIgnored = true) (spaced : Spaced tokens text) :
    Spaced tokens (gap ++ text) := by
  cases spaced with
  | nil others =>
    refine .nil ?_
    rw [List.all_append, ignored, others, Bool.and_true]
  | @cons between token rest tokens others spaced =>
    have both : (gap ++ between).all Character.isIgnored = true := by
      rw [List.all_append, ignored, others, Bool.and_true]
    have grouped : gap ++ (between ++ token ++ rest) = (gap ++ between) ++ token ++ rest := by
      simp only [List.append_assoc]
    rw [grouped]
    exact .cons both spaced

theorem Spaced.append {tokens others : List (List Char)} {text rest : List Char}
    (first : Spaced tokens text) (second : Spaced others rest) :
    Spaced (tokens ++ others) (text ++ rest) := by
  induction first with
  | nil ignored => exact second.gap_append ignored
  | cons ignored spaced ih =>
    rw [List.append_assoc]
    exact .cons ignored ih

/-- The tokens stand in front of what is left of a text. -/
def Writes (tokens : List (List Char)) (text left : List Char) : Prop :=
  ∃ written, text = written ++ left ∧ Spaced tokens written

theorem Writes.append {tokens others : List (List Char)} {text between left : List Char}
    (first : Writes tokens text between) (second : Writes others between left) :
    Writes (tokens ++ others) text left := by
  obtain ⟨front, rfl, spaced⟩ := first
  obtain ⟨back, rfl, others⟩ := second
  exact ⟨front ++ back, (List.append_assoc ..).symm, spaced.append others⟩

theorem Writes.length_le {tokens : List (List Char)} {text left : List Char}
    (writes : Writes tokens text left) : left.length ≤ text.length := by
  obtain ⟨written, rfl, -⟩ := writes
  exact List.length_append ▸ Nat.le_add_left _ _

theorem Spaced.of_append {tokens others : List (List Char)} {text : List Char}
    (spaced : Spaced (tokens ++ others) text) :
    ∃ front back, text = front ++ back ∧ Spaced tokens front ∧ Spaced others back := by
  induction tokens generalizing text with
  | nil => exact ⟨[], text, rfl, .nil rfl, spaced⟩
  | cons token tokens ih =>
    cases spaced with
    | @cons gap token rest tokens ignored spaced =>
      obtain ⟨front, back, rfl, first, second⟩ := ih spaced
      exact ⟨gap ++ token ++ front, back, by simp only [List.append_assoc], .cons ignored first,
        second⟩

theorem Writes.of_append {tokens others : List (List Char)} {text left : List Char}
    (writes : Writes (tokens ++ others) text left) :
    ∃ between, Writes tokens text between ∧ Writes others between left := by
  obtain ⟨written, rfl, spaced⟩ := writes
  obtain ⟨front, back, rfl, first, second⟩ := spaced.of_append
  exact ⟨back ++ left, ⟨front, by rw [List.append_assoc], first⟩, ⟨back, rfl, second⟩⟩

theorem Writes.of_nil {text left : List Char} (writes : Writes [] text left) :
    skip text = skip left := by
  obtain ⟨written, rfl, spaced⟩ := writes
  cases spaced with
  | nil ignored => exact skip_gap ignored left

/-- The first token stands behind the ignored characters of the text. -/
theorem Writes.of_cons {token : List Char} {tokens : List (List Char)} {text left : List Char}
    (writes : Writes (token :: tokens) text left) :
    ∃ behind, skip text = skip (token ++ behind) ∧ Writes tokens behind left := by
  obtain ⟨written, rfl, spaced⟩ := writes
  cases spaced with
  | @cons gap token rest tokens ignored spaced =>
    refine ⟨rest ++ left, ?_, ⟨rest, rfl, spaced⟩⟩
    rw [List.append_assoc, List.append_assoc, skip_gap ignored]

/-- A first token of one character is the character that comes next. -/
theorem Writes.of_mark {c : Char} (kept : Character.isIgnored c = false)
    {tokens : List (List Char)} {text left : List Char} (writes : Writes ([c] :: tokens) text left) :
    ∃ behind, skip text = c :: behind ∧ Writes tokens behind left := by
  obtain ⟨behind, ahead, others⟩ := writes.of_cons
  exact ⟨behind, ahead.trans (skip_cons kept behind), others⟩

/-! ## Single tokens -/

theorem writes_skip (text : List Char) : Writes [] text (skip text) := by
  obtain ⟨gap, ignored, split⟩ := exists_gap text
  exact ⟨gap, split, .nil ignored⟩

theorem writes_of_skip {token text left : List Char} (ahead : skip text = token ++ left) :
    Writes [token] text left := by
  obtain ⟨gap, ignored, split⟩ := exists_gap text
  refine ⟨gap ++ token ++ [], ?_, .cons ignored (.nil rfl)⟩
  rw [List.append_nil, List.append_assoc, ← ahead, ← split]

theorem writes_of_mark {c : Char} {text left : List Char} (ahead : skip text = c :: left) :
    Writes [[c]] text left :=
  writes_of_skip (show skip text = [c] ++ left from ahead)

theorem writes_token (token left : List Char) : Writes [token] (token ++ left) left := by
  have alone : Spaced [token] ([] ++ token ++ []) := .cons rfl (.nil rfl)
  rw [List.nil_append, List.append_nil] at alone
  exact ⟨token, rfl, alone⟩

theorem writes_of_accept? {name : String} {text left : List Char}
    (accepted : accept? name text = some left) : Writes [name.toList] text left := by
  obtain ⟨behind, ahead, rfl⟩ := accept?_eq_some_iff.1 accepted
  exact (writes_of_skip ahead).append (writes_skip behind)

theorem writes_of_first? {α : Type} {fits : List Char → Bool} {text left : List Char}
    {entries : List (String × α)} {name : String} {declaration : α}
    (found : first? fits text entries = some (name, declaration, left)) :
    Writes [name.toList] text left :=
  writes_of_accept? (of_first?_eq_some found).2.2.1

theorem Unread.Signed.writes {sign : Option Char} {text named : List Char}
    (signed : Signed sign text named) : Writes (sign.toList.map ([·])) text named := by
  cases sign with
  | none =>
    obtain ⟨rfl, -⟩ := signed
    exact writes_skip text
  | some sign =>
    obtain ⟨-, rest, ahead, rfl⟩ := signed
    exact (writes_of_mark ahead).append (writes_skip rest)

/-- A sign is one character less to be read. -/
theorem Unread.Signed.length_lt {sign : Char} {text named : List Char}
    (signed : Signed (some sign) text named) : named.length < text.length := by
  obtain ⟨-, rest, ahead, rfl⟩ := signed
  have before := skip_length_le text
  have after := skip_length_le rest
  rw [ahead, List.length_cons] at before
  omega

/-! ## Trees -/

/-- The tokens of arguments behind another one. -/
def Arguments.further : Arguments → List (List Char)
  | .nil => []
  | .cons first rest => [','] :: (Arguments.cons first rest).tokens

theorem Arguments.tokens_cons (first : Tree) (rest : Arguments) :
    (Arguments.cons first rest).tokens = first.tokens ++ rest.further := by
  cases rest <;> simp [Arguments.tokens, Arguments.further]

mutual

theorem Tree.Reads.writes {v : Vocabulary} (t : Tree) {text left : List Char}
    (reads : t.Reads v text left) : Writes t.tokens text left := by
  match t with
  | .chain tier first rest =>
    obtain ⟨between, firstReads, restReads⟩ := reads
    rw [Tree.tokens]
    exact (Tree.Reads.writes first firstReads).append (Links.Reads.writes rest restReads)
  | .group inner =>
    obtain ⟨opened, closed, ahead, innerReads, close⟩ := reads
    rw [Tree.tokens]
    have parenthesis := writes_of_mark ahead
    exact parenthesis.append
      ((Tree.Reads.writes inner innerReads).append (writes_of_mark close))
  | .call sign name f arguments =>
    obtain ⟨named, behind, opened, signed, found, parenthesis, argumentsReads⟩ := reads
    rw [Tree.tokens]
    have called := (writes_of_first? found).append (writes_of_mark parenthesis)
    exact signed.writes.append (called.append (Arguments.Reads.writes arguments argumentsReads))
  | .constant sign name value =>
    obtain ⟨named, signed, -, found⟩ := reads
    rw [Tree.tokens]
    exact signed.writes.append (writes_of_first? found)
  | .numeral sign ds =>
    obtain ⟨named, signed, -, -, split, -⟩ := reads
    rw [Tree.tokens]
    rw [split] at signed
    exact signed.writes.append (writes_token ds left)
  | .signed sign inner =>
    obtain ⟨named, signed, -, -, -, innerReads⟩ := reads
    rw [Tree.tokens]
    exact signed.writes.append (Tree.Reads.writes inner innerReads)

theorem Links.Reads.writes {v : Vocabulary} (links : Links) {tier : Tier} {text left : List Char}
    (reads : links.Reads v tier text left) : Writes links.tokens text left := by
  match links with
  | .nil =>
    obtain ⟨-, rfl⟩ := reads
    exact ⟨[], rfl, .nil rfl⟩
  | .cons name op right rest =>
    obtain ⟨behind, between, found, rightReads, restReads⟩ := reads
    rw [Links.tokens]
    exact (writes_of_first? found).append
      ((Tree.Reads.writes right rightReads).append (Links.Reads.writes rest restReads))

theorem Arguments.Reads.writes {v : Vocabulary} (arguments : Arguments) {text left : List Char}
    (reads : arguments.Reads v text left) : Writes (arguments.tokens ++ [[')']]) text left := by
  match arguments with
  | .nil => exact writes_of_mark reads
  | .cons first rest =>
    obtain ⟨-, between, firstReads, restReads⟩ := reads
    rw [Arguments.tokens_cons, List.append_assoc]
    exact (Tree.Reads.writes first firstReads).append (Arguments.Continue.writes rest restReads)

theorem Arguments.Continue.writes {v : Vocabulary} (others : Arguments) {text left : List Char}
    (reads : others.Continue v text left) : Writes (others.further ++ [[')']]) text left := by
  match others with
  | .nil => exact writes_of_mark reads
  | .cons first rest =>
    obtain ⟨behind, between, comma, firstReads, restReads⟩ := reads
    rw [Arguments.further, Arguments.tokens_cons, List.cons_append, List.append_assoc]
    exact (writes_of_mark comma).append
      ((Tree.Reads.writes first firstReads).append (Arguments.Continue.writes rest restReads))

end

/-- A tree that is read where a group begins leads with a sign or a parenthesis. -/
theorem Tree.Reads.leads {v : Vocabulary} {t : Tree} {text left : List Char}
    (reads : t.Reads v text left) (group : startsGroup text = true) : t.leads = true := by
  have isSome : ∀ {sign : Option Char} {named : List Char}, Signed sign text named →
      sign.isSome = true := by
    intro sign named signed
    cases sign with
    | none =>
      obtain ⟨-, c, rest, ahead, other, unsigned⟩ := signed
      rw [startsGroup, ahead] at group
      simp [other, unsigned] at group
    | some sign => rfl
  cases t with
  | chain _ first _ =>
    obtain ⟨between, firstReads, -⟩ := reads
    exact firstReads.leads group
  | group _ => rfl
  | signed _ _ => rfl
  | call _ _ _ _ =>
    obtain ⟨named, behind, opened, signed, -⟩ := reads
    exact isSome signed
  | constant _ _ _ =>
    obtain ⟨named, signed, -⟩ := reads
    exact isSome signed
  | numeral _ _ =>
    obtain ⟨named, signed, -⟩ := reads
    exact isSome signed

end Calculator
