import Calculator.Proofs.Evaluation.Failure
import Calculator.Proofs.Evaluation.Outcome
import Calculator.Proofs.Standard.Lexicon

/-!
# What is left behind an expression

An evaluation that stops in front of some text has read a tree up to there, at a place
where no operator comes next. A tree is read in the same way when the text ends where the
reading stopped: what was decided by names that came next there is decided by the same
names, and names that did not come next do not come next in a shorter text.
-/
namespace Calculator
open Unread

/-! ## Texts that end earlier -/

section

variable {v : Vocabulary} {stop : Char} {rest text named left : List Char}

theorem skip_cut (kept : Character.isIgnored stop = false) (front : List Char)
    {behind : List Char}
    (ahead : skip (text ++ stop :: rest) = front ++ (behind ++ stop :: rest)) :
    skip text = front ++ behind := by
  rw [skip_append_cons text kept, ← List.append_assoc] at ahead
  exact List.append_cancel_right ahead

/-- A text that is unread up to its end begins in front of that end. -/
theorem exists_cut_of_skip (kept : Character.isIgnored stop = false) {behind : List Char}
    (unread : left ++ stop :: rest = skip behind) :
    ∃ more, behind = more ++ stop :: rest ∧ left = skip more := by
  obtain ⟨gap, -, split⟩ := exists_gap behind
  rw [← unread, ← List.append_assoc] at split
  refine ⟨gap ++ left, split, ?_⟩
  rw [split, skip_append_cons _ kept] at unread
  exact List.append_cancel_right unread

theorem accept?_cut (kept : Character.isIgnored stop = false) {name : String}
    (accepted : accept? name (text ++ stop :: rest) = some (left ++ stop :: rest)) :
    accept? name text = some left := by
  obtain ⟨behind, ahead, unread⟩ := accept?_eq_some_iff.1 accepted
  obtain ⟨more, rfl, same⟩ := exists_cut_of_skip kept unread
  exact accept?_eq_some_iff.2 ⟨more, skip_cut kept _ ahead, same⟩

/-- What comes next comes next in a longer text, too. -/
theorem accept?_lengthen (kept : Character.isIgnored stop = false) {name : String}
    (accepted : accept? name text = some left) :
    accept? name (text ++ stop :: rest) = some (left ++ stop :: rest) := by
  obtain ⟨behind, ahead, rfl⟩ := accept?_eq_some_iff.1 accepted
  refine accept?_eq_some_iff.2 ⟨behind ++ stop :: rest, ?_, (skip_append_cons behind kept rest).symm⟩
  rw [skip_append_cons text kept, ahead, List.append_assoc]

section

variable {α : Type} {fits : List Char → Bool} {entries : List (String × α)}

/-- An entry that is passed over in a text is passed over in a shorter one. -/
theorem take?_eq_none_cut (kept : Character.isIgnored stop = false)
    (lengthen : ∀ left, fits left = true → fits (left ++ stop :: rest) = true) {entry : String × α}
    (missed : take? fits (text ++ stop :: rest) entry = none) : take? fits text entry = none := by
  rw [take?_eq_none_iff] at missed ⊢
  refine missed.imp_right fun unfit behind accepted => ?_
  rw [← Bool.not_eq_true]
  intro fit
  have longer := unfit _ (accept?_lengthen kept accepted)
  rw [lengthen behind fit] at longer
  cases longer

theorem first?_eq_none_cut (kept : Character.isIgnored stop = false)
    (lengthen : ∀ left, fits left = true → fits (left ++ stop :: rest) = true)
    (missed : first? fits (text ++ stop :: rest) entries = none) :
    first? fits text entries = none := by
  rw [first?, List.findSome?_eq_none_iff] at missed ⊢
  exact fun entry listed => take?_eq_none_cut kept lengthen (missed entry listed)

/-- The entry that is taken in front of the end is taken where the text ends there. -/
theorem first?_cut (kept : Character.isIgnored stop = false)
    (lengthen : ∀ left, fits left = true → fits (left ++ stop :: rest) = true)
    {name : String} {declaration : α} (fit : fits left = true)
    (found : first? fits (text ++ stop :: rest) entries =
      some (name, declaration, left ++ stop :: rest)) :
    first? fits text entries = some (name, declaration, left) := by
  rw [first?, List.findSome?_eq_some_iff] at found ⊢
  obtain ⟨before, entry, after, rfl, taken, earlier⟩ := found
  obtain ⟨rfl, nonempty, accepted, -⟩ := take?_eq_some_iff.1 taken
  refine ⟨before, _, after, rfl,
    take?_eq_some_iff.2 ⟨rfl, nonempty, accept?_cut kept accepted, fit⟩, ?_⟩
  exact fun other listed => take?_eq_none_cut kept lengthen (earlier other listed)

theorem nonblank_of_first? {name : String} {declaration : α}
    (found : first? fits text entries = some (name, declaration, left)) : skip text ≠ [] := by
  intro blank
  rw [first?_eq_none_of_end blank] at found
  cases found

end

theorem opensParenthesis_lengthen (kept : Character.isIgnored stop = false)
    (opens : opensParenthesis text = true) : opensParenthesis (text ++ stop :: rest) = true := by
  obtain ⟨opened, ahead⟩ := opensParenthesis_iff.1 opens
  refine opensParenthesis_iff.2 ⟨opened ++ stop :: rest, ?_⟩
  rw [skip_append_cons text kept, ahead, List.cons_append]

theorem functionAt?_eq_none_cut (kept : Character.isIgnored stop = false)
    (missed : v.functionAt? (text ++ stop :: rest) = none) : v.functionAt? text = none :=
  first?_eq_none_cut kept (fun _ => opensParenthesis_lengthen kept) missed

theorem startsGroup_cut (kept : Character.isIgnored stop = false) (nonblank : skip text ≠ [])
    (group : startsGroup (text ++ stop :: rest) = true) : startsGroup text = true := by
  rw [startsGroup, skip_append_cons text kept] at group
  rw [startsGroup]
  obtain ⟨c, behind, ahead⟩ := List.exists_cons_of_ne_nil nonblank
  rw [ahead] at group ⊢
  exact group

theorem Unread.Signed.cut (kept : Character.isIgnored stop = false) {sign : Option Char}
    (signed : Signed sign (text ++ stop :: rest) (named ++ stop :: rest)) (nonempty : named ≠ []) :
    Signed sign text named := by
  cases sign with
  | none =>
    obtain ⟨unread, c, behind, ahead, other, unsigned⟩ := signed
    rw [← unread] at ahead
    rw [skip_append_cons text kept] at unread
    obtain ⟨d, more, rfl⟩ := List.exists_cons_of_ne_nil nonempty
    obtain ⟨rfl, -⟩ := List.cons.inj ahead
    have same := List.append_cancel_right unread
    exact ⟨same, d, more, same.symm, other, unsigned⟩
  | some sign =>
    obtain ⟨isSign, behind, ahead, unread⟩ := signed
    obtain ⟨more, rfl, same⟩ := exists_cut_of_skip kept unread
    exact ⟨isSign, more, skip_cut kept [sign] ahead, same⟩

theorem Grammar.EndsNumber.cut (ends : Grammar.EndsNumber (text ++ stop :: rest)) :
    Grammar.EndsNumber text := by
  cases text with
  | nil => exact nofun
  | cons c behind => exact ends

/-- What is written in front of a text that goes on to the end goes on to it, too. -/
theorem Writes.exists_cut {tokens : List (List Char)}
    (writes : Writes tokens text (left ++ stop :: rest)) : ∃ more, text = more ++ stop :: rest := by
  obtain ⟨written, rfl, -⟩ := writes
  exact ⟨written ++ left, (List.append_assoc ..).symm⟩

end

/-! ## Trees up to the end -/

mutual

/-- A tree is read where the text ends behind it as in front of more. -/
theorem Tree.Reads.cut {v : Vocabulary} {stop : Char} (kept : Character.isIgnored stop = false)
    {rest : List Char} (t : Tree) {level : Level} {text left : List Char} (stands : t.Over v level)
    (reads : t.Reads v (text ++ stop :: rest) (left ++ stop :: rest)) : t.Reads v text left := by
  match t with
  | .chain tier first links =>
    obtain ⟨between, firstReads, linksRead⟩ := reads
    obtain ⟨more, rfl⟩ := (Links.Reads.writes links linksRead).exists_cut
    exact ⟨more, Tree.Reads.cut kept first stands.2.1 firstReads,
      Links.Reads.cut kept links stands.2.2 linksRead⟩
  | .group inner =>
    obtain ⟨opened, closed, ahead, innerReads, close⟩ := reads
    obtain ⟨last, rfl⟩ := (writes_of_mark close).exists_cut
    obtain ⟨more, rfl⟩ := (Tree.Reads.writes inner innerReads).exists_cut
    exact ⟨more, last, skip_cut kept ['('] ahead,
      Tree.Reads.cut kept inner stands.2 innerReads, skip_cut kept [')'] close⟩
  | .call sign name f arguments =>
    obtain ⟨named, behind, opened, signed, found, parenthesis, argumentsRead⟩ := reads
    obtain ⟨inside, rfl⟩ := (Arguments.Reads.writes arguments argumentsRead).exists_cut
    obtain ⟨last, rfl⟩ := (writes_of_mark parenthesis).exists_cut
    obtain ⟨more, rfl⟩ := (writes_of_first? found).exists_cut
    have begins := skip_cut kept ['('] parenthesis
    have taken := first?_cut kept (fun _ => opensParenthesis_lengthen kept)
      (opensParenthesis_iff.2 ⟨inside, begins⟩) found
    have nonempty := ne_nil_of_skip (nonblank_of_first? taken)
    exact ⟨more, last, inside, signed.cut kept nonempty, taken, begins,
      Arguments.Reads.cut kept arguments stands.2.2.2 argumentsRead⟩
  | .constant sign name value =>
    obtain ⟨named, signed, noFunction, found⟩ := reads
    obtain ⟨more, rfl⟩ := (writes_of_first? found).exists_cut
    have taken := first?_cut kept (fun _ _ => rfl) rfl found
    have nonempty := ne_nil_of_skip (nonblank_of_first? taken)
    exact ⟨more, signed.cut kept nonempty, functionAt?_eq_none_cut kept noFunction, taken⟩
  | .numeral sign ds =>
    obtain ⟨named, signed, noFunction, noConstant, split, ends⟩ := reads
    rw [← List.append_assoc] at split
    subst split
    obtain ⟨c, others, rfl, -⟩ := Grammar.exists_digit_of_plain stands.2.2
    exact ⟨_, signed.cut kept (List.cons_ne_nil _ _), functionAt?_eq_none_cut kept noFunction,
      first?_eq_none_cut kept (fun _ _ => rfl) noConstant, rfl, ends.cut⟩
  | .signed sign inner =>
    obtain ⟨named, signed, noFunction, noConstant, group, innerReads⟩ := reads
    obtain ⟨more, rfl⟩ := (Tree.Reads.writes inner innerReads).exists_cut
    have inside := Tree.Reads.cut kept inner stands.2.2.2 innerReads
    have nonempty := ne_nil_of_skip inside.nonblank
    exact ⟨more, signed.cut kept nonempty, functionAt?_eq_none_cut kept noFunction,
      first?_eq_none_cut kept (fun _ _ => rfl) noConstant,
      startsGroup_cut kept inside.nonblank group, inside⟩

theorem Links.Reads.cut {v : Vocabulary} {stop : Char} (kept : Character.isIgnored stop = false)
    {rest : List Char} (links : Links) {tier : Tier} {text left : List Char}
    (stands : links.Over v tier)
    (reads : links.Reads v tier (text ++ stop :: rest) (left ++ stop :: rest)) :
    links.Reads v tier text left := by
  match links with
  | .nil =>
    obtain ⟨none, same⟩ := reads
    exact ⟨first?_eq_none_cut kept (fun _ _ => rfl) none, List.append_cancel_right same⟩
  | .cons name op right others =>
    obtain ⟨behind, between, found, rightReads, othersRead⟩ := reads
    obtain ⟨more, rfl⟩ := (Links.Reads.writes others othersRead).exists_cut
    obtain ⟨operand, rfl⟩ := (Tree.Reads.writes right rightReads).exists_cut
    exact ⟨operand, more, first?_cut kept (fun _ _ => rfl) rfl found,
      Tree.Reads.cut kept right stands.2.1 rightReads,
      Links.Reads.cut kept others stands.2.2 othersRead⟩

theorem Arguments.Reads.cut {v : Vocabulary} {stop : Char} (kept : Character.isIgnored stop = false)
    {rest : List Char} (arguments : Arguments) {text left : List Char} (stands : arguments.Over v)
    (reads : arguments.Reads v (text ++ stop :: rest) (left ++ stop :: rest)) :
    arguments.Reads v text left := by
  match arguments with
  | .nil => exact skip_cut kept [')'] reads
  | .cons first others =>
    obtain ⟨open_, between, firstReads, othersRead⟩ := reads
    obtain ⟨more, rfl⟩ := (Arguments.Continue.writes others othersRead).exists_cut
    refine ⟨fun behind close => open_ (behind ++ stop :: rest) ?_, more,
      Tree.Reads.cut kept first stands.1 firstReads,
      Arguments.Continue.cut kept others stands.2 othersRead⟩
    rw [skip_append_cons text kept, close, List.cons_append]

theorem Arguments.Continue.cut {v : Vocabulary} {stop : Char}
    (kept : Character.isIgnored stop = false) {rest : List Char} (others : Arguments)
    {text left : List Char} (stands : others.Over v)
    (reads : others.Continue v (text ++ stop :: rest) (left ++ stop :: rest)) :
    others.Continue v text left := by
  match others with
  | .nil => exact skip_cut kept [')'] reads
  | .cons first others =>
    obtain ⟨behind, between, comma, firstReads, othersRead⟩ := reads
    obtain ⟨more, rfl⟩ := (Arguments.Continue.writes others othersRead).exists_cut
    obtain ⟨argument, rfl⟩ := (Tree.Reads.writes first firstReads).exists_cut
    exact ⟨argument, more, skip_cut kept [','] comma,
      Tree.Reads.cut kept first stands.1 firstReads,
      Arguments.Continue.cut kept others stands.2 othersRead⟩

end

/-! ## No operator comes next -/

/-- How strongly operators bind that can no longer follow what stands at a level. -/
def Level.strength : Level → Nat
  | .chain tier => tier.strength
  | .factor => Tier.all.length

theorem Tier.strength_lt (tier : Tier) : tier.strength < Tier.all.length := by
  cases tier <;> decide

theorem Tier.strength_operands (tier : Tier) : tier.operands.strength = tier.strength + 1 := by
  cases tier <;> rfl

mutual

/-- Behind a chain comes no operator of its tier and none that binds more strongly. -/
theorem Tree.Reads.unmatched {v : Vocabulary} (t : Tree) {level : Level} {text left : List Char}
    (stands : t.Over v level) (reads : t.Reads v text left) (tier : Tier)
    (bound : level.strength ≤ tier.strength) : v.operatorAt? tier left = none := by
  match t with
  | .chain own first links =>
    obtain ⟨rfl, firstOver, linksOver⟩ := stands
    obtain ⟨between, firstReads, linksRead⟩ := reads
    refine Links.Reads.unmatched links linksOver linksRead (fun other stronger => ?_) tier bound
    refine Tree.Reads.unmatched first firstOver firstReads other ?_
    rw [Tier.strength_operands]
    exact stronger
  | .group _ | .call _ _ _ _ | .constant _ _ _ | .numeral _ _ | .signed _ _ =>
    obtain ⟨rfl, -⟩ := stands
    exact absurd bound (Nat.not_le_of_lt tier.strength_lt)

theorem Links.Reads.unmatched {v : Vocabulary} (links : Links) {own : Tier} {text left : List Char}
    (stands : links.Over v own) (reads : links.Reads v own text left)
    (before : ∀ other : Tier, own.strength < other.strength → v.operatorAt? other text = none)
    (tier : Tier) (bound : own.strength ≤ tier.strength) : v.operatorAt? tier left = none := by
  match links with
  | .nil =>
    obtain ⟨none, rfl⟩ := reads
    rcases Nat.lt_or_eq_of_le bound with stronger | same
    · exact before tier stronger
    · exact Tier.eq_of_strength same ▸ none
  | .cons name op right others =>
    obtain ⟨-, rightOver, othersOver⟩ := stands
    obtain ⟨behind, between, -, rightReads, othersRead⟩ := reads
    refine Links.Reads.unmatched others othersOver othersRead (fun other stronger => ?_) tier bound
    refine Tree.Reads.unmatched right rightOver rightReads other ?_
    rw [Tier.strength_operands]
    exact stronger

end

/-- Where no operator of a tier is taken, the text begins with the name of none. -/
theorem not_prefix_of_operatorAt? {v : Vocabulary} (wellFormed : v.WellFormed) {text : List Char}
    (none : ∀ tier, v.operatorAt? tier text = none) :
    ∀ entry ∈ v.operators.entries, ¬ entry.1.toList <+: skip text := by
  rintro entry listed ⟨behind, split⟩
  have passed := none entry.2.tier
  rw [Vocabulary.operatorAt?, first?, List.findSome?_eq_none_iff] at passed
  have own := passed entry (Vocabulary.mem_operatorsOf_iff.2 ⟨listed, rfl⟩)
  rcases take?_eq_none_iff.1 own with empty | unfit
  · exact wellFormed.operators.nonempty entry listed empty
  · cases unfit _ (accept?_eq_some_iff.2 ⟨behind, split.symm, rfl⟩)

/-! ## Runs -/

namespace Reader

variable {α β : Type} {start : Cursor} (answers : Call → CallResult)

theorem FailsOnly.run {P : EvaluationError → Cursor → Prop} {p : Reader α start}
    (fails : FailsOnly P p) {e : EvaluationError}
    (failed : (p.run (m := Id) fun request _ => answers request).result = .error e) :
    P e (p.run (m := Id) fun request _ => answers request).cursor := by
  induction fails with
  | done failing => exact failing e failed
  | call _ ih => exact ih _ failed

/-- A value that follows a tree is left where the tree is. -/
theorem Follows.run_cursor {left : List Char} {p : Reader α start}
    {q : Interaction (Except EvaluationError α)} (follows : Follows left p q) {x : α}
    (value : (p.run (m := Id) fun request _ => answers request).result = .ok x) :
    skip (p.run (m := Id) fun request _ => answers request).cursor.ahead = skip left := by
  induction follows with
  | value unread => exact unread
  | failure => exact nomatch value
  | call _ ih => exact ih _ value

/-- What reads on comes to the failure of the first reading, or to what follows its value. -/
theorem run_andThen (p : Reader α start)
    (next : (x : α) → (c : Cursor) → c.ahead.length ≤ start.ahead.length → Reader β c) :
    (∃ e, (p.run (m := Id) fun request _ => answers request).result = .error e ∧
        ((p.andThen next).run (m := Id) fun request _ => answers request).result = .error e) ∨
      ∃ x c le, (p.run (m := Id) fun request _ => answers request).result = .ok x ∧
        (p.run (m := Id) fun request _ => answers request).cursor = c ∧
        ((p.andThen next).run (m := Id) fun request _ => answers request).result =
          ((next x c le).run (m := Id) fun request _ => answers request).result := by
  induction p with
  | done reading =>
    obtain ⟨result, c, le⟩ := reading
    cases result with
    | error e => exact .inl ⟨e, rfl, rfl⟩
    | ok x => exact .inr ⟨x, c, le, rfl, rfl, (run_since answers (next x c le) le).1⟩
  | call request site resume ih => exact ih _

end Reader

namespace Grammar

variable {v : Vocabulary} (answers : Call → CallResult)

theorem evaluate_eq (text : String) : evaluate (m := Id) answers v text =
    ((expression v (.ofString text)).run (m := Id) fun request _ => answers request).result := rfl

/-- No chain fails for what is left behind it. -/
theorem chain_ne_trailing (c : Cursor) (s : String) :
    ((chain v .polynomial c).run (m := Id) fun request _ => answers request).result ≠
      .error (.trailing s) := by
  intro failed
  rcases ((rules_fail v).1 .polynomial c).run answers failed with own | ⟨d, -, ended⟩
  · cases own
  · obtain ⟨place, same⟩ := end_of_next ended
    cases same

/-- What is left behind a polynomial is nothing, or a failure tells it. -/
theorem run_ending (x : Float) (c : Cursor) :
    ((ending x c).run (m := Id) fun request _ => answers request).result =
      if skip c.ahead = [] then .ok x else .error (.trailing (String.ofList (skip c.ahead))) := by
  rw [ending]
  by_cases ended : skip c.ahead = []
  · rw [if_pos ended, if_pos (isOver_of_skip_nil ended)]
    rfl
  · have more : ¬ c.skipIgnored.isOver = true := by
      rwa [Cursor.isOver, skipIgnored_ahead, List.isEmpty_iff]
    rw [if_neg ended, if_neg more]
    rfl

section

variable {t : Tree} {text : String} {left : List Char} (stands : t.Over v (.chain .polynomial))
  (reads : t.Reads v text.toList left)
include stands reads

theorem chain_run :
    ((chain v .polynomial (.ofString text)).run (m := Id) fun request _ => answers request).result =
      t.evaluate (m := Id) answers :=
  (reads.follows t stands (c := .ofString text) rfl).run (m := Id) answers

theorem chain_run_cursor {x : Float} (value : t.evaluate (m := Id) answers = .ok x) :
    skip ((chain v .polynomial (.ofString text)).run (m := Id)
      fun request _ => answers request).cursor.ahead = skip left :=
  (reads.follows t stands (c := .ofString text) rfl).run_cursor answers
    ((chain_run answers stands reads).trans value)

/-- What a text comes to that begins with a tree. -/
theorem evaluate_of_begins :
    evaluate (m := Id) answers v text =
      match t.evaluate (m := Id) answers with
      | .error e => .error e
      | .ok x => if skip left = [] then .ok x
        else .error (.trailing (String.ofList (skip left))) := by
  rw [evaluate_eq, expression_of_nonempty (ne_nil_of_skip reads.nonblank)]
  rcases Reader.run_andThen answers (chain v .polynomial (.ofString text)) fun x c _ => ending x c
    with ⟨e, failed, result⟩ | ⟨x, c, -, value, reached, result⟩
  · rw [chain_run answers stands reads] at failed
    rw [failed, result]
  · rw [chain_run answers stands reads] at value
    rw [value, result, run_ending, ← reached, chain_run_cursor answers stands reads value]

end

/-- A text that begins with no tree is not left in front of anything. -/
theorem evaluate_ne_trailing_of_barren {text : String}
    (barren : Reader.Barren (chain v .polynomial (.ofString text))) (s : String) :
    evaluate (m := Id) answers v text ≠ .error (.trailing s) := by
  intro failed
  rw [evaluate_eq] at failed
  by_cases empty : text.toList = []
  · rw [expression_of_over empty] at failed
    cases failed
  · rw [expression_of_nonempty empty] at failed
    rcases Reader.run_andThen answers (chain v .polynomial (.ofString text)) fun x c _ => ending x c
      with ⟨e, first, result⟩ | ⟨x, c, -, value, -⟩
    · cases result.symm.trans failed
      exact chain_ne_trailing answers _ s first
    · exact barren.run answers x value

/-- An evaluation stops in front of some text exactly when a tree with a value is read up
    to there. -/
theorem evaluate_trailing_iff {text s : String} :
    evaluate (m := Id) answers v text = .error (.trailing s) ↔
      ∃ t left, Tree.Over v t (.chain .polynomial) ∧ t.Reads v text.toList left ∧
        skip left = s.toList ∧ s.toList ≠ [] ∧ ∃ x, t.evaluate (m := Id) answers = .ok x := by
  constructor
  · intro failed
    rcases decided v (.chain .polynomial) text.toList with ⟨t, left, stands, reads⟩ | barren
    · rw [evaluate_of_begins answers stands reads] at failed
      cases value : t.evaluate (m := Id) answers with
      | error e =>
        rw [value] at failed
        cases failed
        exact absurd ((chain_run answers stands reads).trans value) (chain_ne_trailing answers _ s)
      | ok x =>
        rw [value] at failed
        dsimp only at failed
        split at failed
        · cases failed
        · rename_i more
          cases failed
          rw [String.toList_ofList]
          exact ⟨t, left, stands, reads, rfl, more, x, value⟩
    · exact absurd failed (evaluate_ne_trailing_of_barren answers (barren _ rfl) s)
  · rintro ⟨t, left, stands, reads, unread, more, x, value⟩
    rw [evaluate_of_begins answers stands reads, value]
    dsimp only
    rw [unread, if_neg more, String.ofList_toList]

/-- The text that an evaluation stopped in front of, and what it would have come to
    without that text. -/
structure Trails (v : Vocabulary) (answers : Call → CallResult) (text s : String) : Prop where
  begins : ∃ c rest, s.toList = c :: rest ∧ Character.isIgnored c = false
  /-- No operator of any tier comes next. -/
  unmatched : ∀ entry ∈ v.operators.entries, ¬ entry.1.toList <+: s.toList
  /-- The text up to there is an expression with a value. -/
  complete : ∃ p x, text = p ++ s ∧ evaluate (m := Id) answers v p = .ok x

/-- An evaluation that stops in front of some text has read an expression with a value, and
    stops where no declared operator goes on. -/
theorem trails_of_evaluate (reachable : v.Reachable) {text s : String}
    (failed : evaluate (m := Id) answers v text = .error (.trailing s)) :
    Trails v answers text s := by
  obtain ⟨t, left, stands, reads, unread, more, x, value⟩ :=
    (evaluate_trailing_iff answers).1 failed
  obtain ⟨stop, rest, begins⟩ := List.exists_cons_of_ne_nil more
  have kept : Character.isIgnored stop = false := isIgnored_of_skip_eq_cons (unread.trans begins)
  refine ⟨⟨stop, rest, begins, kept⟩, ?_, ?_⟩
  · rw [← unread]
    exact not_prefix_of_operatorAt? reachable.wellFormed fun tier =>
      reads.unmatched t stands tier (Nat.zero_le _)
  · obtain ⟨gap, ignored, split⟩ := exists_gap left
    obtain ⟨written, whole, -⟩ := reads.writes t
    rw [unread, begins] at split
    rw [split, ← List.append_assoc] at whole
    rw [whole, split] at reads
    have alone : t.Reads v (String.ofList (written ++ gap)).toList gap := by
      rw [String.toList_ofList]
      exact reads.cut kept t stands
    have blank : skip gap = [] := by
      have all := skip_gap ignored []
      rwa [List.append_nil, skip_nil] at all
    refine ⟨String.ofList (written ++ gap), x, ?_, ?_⟩
    · rw [← String.toList_inj, String.toList_append, String.toList_ofList, whole, begins]
    · rw [evaluate_of_begins answers stands alone, value]
      exact if_pos blank

/-- A second number is not read over the standard names, and the first is a value without it. -/
theorem trails_second_number :
    evaluate (m := Id) Call.finish Standard.vocabulary "1 2" = .error (.trailing "2") ∧
      Trails Standard.vocabulary Call.finish "1 2" "2" := by
  have failed : evaluate (m := Id) Call.finish Standard.vocabulary "1 2" =
      .error (.trailing "2") := by
    have plain : IsPlainNumeral ['1'] := plain_of_isDigit (by decide)
    refine (evaluate_trailing_iff Call.finish).2
      ⟨.lone (.numeral none ['1']), [' ', '2'],
        ⟨rfl, ⟨rfl, ⟨rfl, ⟨rfl, nofun, plain⟩, trivial⟩, trivial⟩, trivial⟩, ?_, rfl, nofun, 1, rfl⟩
    have unmatched : ∀ tier, Standard.vocabulary.operatorAt? tier [' ', '2'] = none :=
      Standard.operatorAt?_of_other (by decide)
    refine ⟨_, ⟨_, ⟨_, ?_, unmatched _, rfl⟩, unmatched _, rfl⟩, unmatched _, rfl⟩
    refine ⟨['1', ' ', '2'], ⟨rfl, '1', _, rfl, by decide, rfl⟩,
      Standard.functionAt?_of_other (by decide), Standard.constantAt?_of_other (by decide), rfl, ?_⟩
    rintro c ⟨⟩
    decide
  exact ⟨failed, trails_of_evaluate Call.finish .standard failed⟩

end Grammar

end Calculator
