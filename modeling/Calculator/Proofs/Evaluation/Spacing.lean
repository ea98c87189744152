import Calculator.Proofs.Evaluation.Branches
import Calculator.Proofs.Evaluation.Course
import Calculator.Proofs.Evaluation.Outcome
import Calculator.Proofs.Standard.Lexicon
import Calculator.Proofs.Text.Gaps

/-!
# The length of a gap

Where no declared name holds an ignored character, an expression and its normal form are
evaluated alike. Two readings are followed side by side: their positions stand in different
places of different texts, but what is unread has one normal form. A number reads its digits
without skipping anything, so it has to begin where the tight forms agree.
-/
namespace Calculator
open Unread

namespace Reader

variable {α β : Type} {start start' : Cursor}

/-- Under the same answers two readings make the same calls and come to the same value with
    one normal form unread, or both fail. -/
inductive Matches : Reader α start → Reader α start' → Prop where
  | value {x : α} {c c' : Cursor} {forward : c.ahead.length ≤ start.ahead.length}
      {forward' : c'.ahead.length ≤ start'.ahead.length}
      (unread : normal c.ahead = normal c'.ahead) :
      Matches (.done ⟨.ok x, c, forward⟩) (.done ⟨.ok x, c', forward'⟩)
  | failure {e e' : EvaluationError} {c c' : Cursor}
      {forward : c.ahead.length ≤ start.ahead.length}
      {forward' : c'.ahead.length ≤ start'.ahead.length} :
      Matches (.done ⟨.error e, c, forward⟩) (.done ⟨.error e', c', forward'⟩)
  | call {request : Call} {site site' : Site} {resume : CallResult → Reader α start}
      {resume' : CallResult → Reader α start'}
      (answered : ∀ answer, Matches (resume answer) (resume' answer)) :
      Matches (.call request site resume) (.call request site' resume')

theorem Matches.symm {p : Reader α start} {p' : Reader α start'} (same : Matches p p') :
    Matches p' p := by
  induction same with
  | value unread => exact .value unread.symm
  | failure => exact .failure
  | call _ ih => exact .call ih

theorem Matches.since {p : Reader α start} {p' : Reader α start'} (same : Matches p p')
    {earlier earlier' : Cursor} {le : start.ahead.length ≤ earlier.ahead.length}
    {le' : start'.ahead.length ≤ earlier'.ahead.length} :
    Matches (p.since earlier le) (p'.since earlier' le') := by
  induction same with
  | value unread => exact .value unread
  | failure => exact .failure
  | call _ ih => exact .call ih

theorem Matches.andThen {p : Reader α start} {p' : Reader α start'}
    {next : (x : α) → (c : Cursor) → c.ahead.length ≤ start.ahead.length → Reader β c}
    {next' : (x : α) → (c : Cursor) → c.ahead.length ≤ start'.ahead.length → Reader β c}
    (same : Matches p p')
    (continued : ∀ x c le c' le', normal c.ahead = normal c'.ahead →
      Matches (next x c le) (next' x c' le')) : Matches (p.andThen next) (p'.andThen next') := by
  induction same with
  | value unread => exact (continued _ _ _ _ _ unread).since
  | failure => exact .failure
  | call _ ih => exact .call ih

theorem Matches.ask {place place' : Nat} {request : Call} {next : Float → Reader α start}
    {next' : Float → Reader α start'} (continued : ∀ x, Matches (next x) (next' x)) :
    Matches (ask place request next) (ask place' request next') := by
  refine .call fun answer => ?_
  cases answer with
  | error e => exact .failure
  | ok x => exact continued x

theorem Matches.settled {result : Except EvaluationError α} {c c' : Cursor}
    {forward : c.ahead.length ≤ start.ahead.length}
    {forward' : c'.ahead.length ≤ start'.ahead.length}
    (unread : normal c.ahead = normal c'.ahead) :
    Matches (settled result c forward) (settled result c' forward') := by
  cases result with
  | error e => exact .failure
  | ok x => exact .value unread

/-! ## What matching readings have in common -/

/-- Each course of one reading is, but for the places, a course of the other. -/
theorem Matches.course {p : Reader α start} {p' : Reader α start'} (same : Matches p p')
    {made : List Exchange} {reading : Reading α start} (course : p.Course made reading) :
    ∃ made' reading', p'.Course made' reading' ∧
      made'.map Exchange.unplaced = made.map Exchange.unplaced ∧
        reading'.result.toOption = reading.result.toOption := by
  induction same generalizing made with
  | value unread =>
    cases course
    exact ⟨[], _, .done _, rfl, rfl⟩
  | failure =>
    cases course
    exact ⟨[], _, .done _, rfl, rfl⟩
  | call _ ih =>
    cases course with
    | call rest =>
      obtain ⟨made', reading', course', calls, result⟩ := ih _ rest
      exact ⟨_, reading', .call course', congrArg (_ :: ·) calls, result⟩

/-- Whoever answers, they come to the same value or both to none. -/
theorem Matches.run {m : Type → Type} [Monad m] [LawfulMonad m] (answer : Call → m CallResult)
    {p : Reader α start} {p' : Reader α start'} (same : Matches p p') :
    (fun reading => reading.result.toOption) <$> Interaction.run (fun request _ => answer request) p =
      (fun reading => reading.result.toOption) <$>
        Interaction.run (fun request _ => answer request) p' := by
  induction same with
  | value unread => simp [Interaction.run]
  | failure => simp [Interaction.run, Except.toOption]
  | call _ ih => simp [Interaction.run, ih]

end Reader

/-- Whether no declared name holds an ignored character. -/
def Vocabulary.Whole (v : Vocabulary) : Prop := ∀ kind, ∀ name ∈ v.names kind, isWhole name = true

namespace Grammar

/-! ## What comes next -/

section

variable {α : Type} {c c' d : Cursor}

/-- What was taken at two positions is the same name, with one tight form left unread. -/
def SameTaken (found : Option (Taken α c)) (found' : Option (Taken α c')) : Prop :=
  (found.map fun taken => (taken.name, taken.declaration, tight taken.cursor.ahead)) =
    found'.map fun taken => (taken.name, taken.declaration, tight taken.cursor.ahead)

theorem SameTaken.eq_none {found : Option (Taken α c)} {found' : Option (Taken α c')}
    (same : SameTaken found found') (missed : found = none) : found' = none := by
  subst missed
  exact Option.map_eq_none_iff.1 same.symm

theorem SameTaken.exists_some {found : Option (Taken α c)} {found' : Option (Taken α c')}
    (same : SameTaken found found') {taken : Taken α c} (first : found = some taken) :
    ∃ taken', found' = some taken' ∧ taken'.name = taken.name ∧
      taken'.declaration = taken.declaration ∧
        tight taken.cursor.ahead = tight taken'.cursor.ahead := by
  subst first
  obtain ⟨taken', second, marks⟩ := Option.map_eq_some_iff.1 same.symm
  obtain ⟨name, rest⟩ := Prod.mk.inj marks
  obtain ⟨declaration, unread⟩ := Prod.mk.inj rest
  exact ⟨taken', second, name, declaration, unread.symm⟩

theorem takeFirst?_normal {fits : Cursor → Bool} {fitting : List Char → Bool}
    (same : ∀ d, fits d = fitting d.ahead) (tightly : ∀ left, fitting (tight left) = fitting left)
    {entries : List (String × α)} (whole : ∀ entry ∈ entries, isWhole entry.1 = true) (c : Cursor) :
    ((takeFirst? c fits entries).map fun taken =>
        (taken.name, taken.declaration, tight taken.cursor.ahead)) =
      first? fitting (normal c.ahead) entries := by
  rw [first?_normal tightly whole, ← takeFirst?_map c fits fitting same, Option.map_map]
  rfl

theorem sameTaken_of_normal {fits : Cursor → Bool} (fitting : List Char → Bool)
    (same : ∀ d, fits d = fitting d.ahead) (tightly : ∀ left, fitting (tight left) = fitting left)
    {entries : List (String × α)} (whole : ∀ entry ∈ entries, isWhole entry.1 = true)
    (alike : normal c.ahead = normal c'.ahead) :
    SameTaken (takeFirst? c fits entries) (takeFirst? c' fits entries) := by
  rw [SameTaken, takeFirst?_normal same tightly whole, takeFirst?_normal same tightly whole, alike]

theorem takeSign?_same (alike : normal c.ahead = normal c'.ahead) :
    SameTaken (takeSign? c) (takeSign? c') :=
  sameTaken_of_normal (fun _ => true) (fun _ => rfl) (fun _ => rfl) (by decide) alike

section

variable {v : Vocabulary} (whole : v.Whole)
include whole

theorem takeOperator?_same (alike : normal c.ahead = normal c'.ahead) (tier : Tier) :
    SameTaken (v.takeOperator? tier c) (v.takeOperator? tier c') := by
  refine sameTaken_of_normal (fun _ => true) (fun _ => rfl) (fun _ => rfl) ?_ alike
  exact fun entry listed => whole .operator _
    (List.mem_map_of_mem (f := (·.1)) (Vocabulary.mem_operatorsOf_iff.1 listed).1)

theorem takeFunction?_same (alike : normal c.ahead = normal c'.ahead) :
    SameTaken (v.takeFunction? c) (v.takeFunction? c') :=
  sameTaken_of_normal opensParenthesis (fun d => lookahead_singleton d "(")
    opensParenthesis_tight
    (fun _ listed => whole .function _ (List.mem_map_of_mem (f := (·.1)) listed)) alike

theorem takeConstant?_same (alike : normal c.ahead = normal c'.ahead) :
    SameTaken (v.takeConstant? c) (v.takeConstant? c') :=
  sameTaken_of_normal (fun _ => true) (fun _ => rfl) (fun _ => rfl)
    (fun _ listed => whole .constant _ (List.mem_map_of_mem (f := (·.1)) listed)) alike

end

section

variable {literal : String} (whole : isWhole literal = true)
  (alike : normal c.ahead = normal c'.ahead)
include whole alike

theorem accept?_same :
    (c.accept? literal).map (tight ·.ahead) = (c'.accept? literal).map (tight ·.ahead) := by
  have each : ∀ d : Cursor,
      (d.accept? literal).map (tight ·.ahead) = accept? literal (normal d.ahead) := by
    intro d
    rw [accept?_normal whole, ← accept?_ahead, Option.map_map]
    rfl
  rw [each, each, alike]

theorem accept?_eq_none_of_normal (missed : c.accept? literal = none) :
    c'.accept? literal = none := by
  have same := accept?_same whole alike
  rw [missed] at same
  exact Option.map_eq_none_iff.1 same.symm

theorem exists_accept?_of_normal (accepted : c.accept? literal = some d) :
    ∃ d', c'.accept? literal = some d' ∧ tight d.ahead = tight d'.ahead := by
  have same := accept?_same whole alike
  rw [accepted] at same
  obtain ⟨d', accepted', unread⟩ := Option.map_eq_some_iff.1 same.symm
  exact ⟨d', accepted', unread.symm⟩

end

end

/-! ## Single characters and digits -/

section

variable {v : Vocabulary} {c c' d : Cursor}

theorem exists_next_of_normal (alike : normal c.ahead = normal c'.ahead) {found : Char}
    (next : c.next true = (.ok found, d)) :
    ∃ d', c'.next true = (.ok found, d') ∧ tight d.ahead = tight d'.ahead ∧
      tight d.retreat.ahead = tight d'.retreat.ahead := by
  obtain ⟨rest', there, behind⟩ := exists_cons_of_normal alike (skip_of_next next)
  obtain ⟨passed, next'⟩ := next_of_skip_cons there
  refine ⟨_, next', behind, ?_⟩
  rw [retreat_of_next next, retreat_of_next next']
  exact alike

theorem exists_failed_of_normal (alike : normal c.ahead = normal c'.ahead) {e : EvaluationError}
    (failed : c.next true = (.error e, d)) : ∃ e' d', c'.next true = (.error e', d') := by
  cases ahead : skip c'.ahead with
  | nil => exact ⟨_, _, next_of_skip_nil ahead⟩
  | cons found rest =>
    obtain ⟨passed, next⟩ := next_of_skip_cons ahead
    obtain ⟨d', next', -⟩ := exists_next_of_normal alike.symm next
    cases failed.symm.trans next'

/-- Digits end with a gap of whatever length. -/
theorem collectDigits_of_gapped {text : List Char} (gapped : Gapped text) (draft : Numeral.Draft)
    (passed : List Char) : collectDigits draft passed text = (.ok draft, ⟨passed, text⟩) := by
  cases text with
  | nil => rfl
  | cons c rest =>
    have ignored := gapped c rfl
    have noDigit : Character.isDigit c = false := by
      rcases (Character.isIgnored_iff c).1 ignored with rfl | rfl <;> decide
    have noPoint : c ≠ '.' := by
      rcases (Character.isIgnored_iff c).1 ignored with rfl | rfl <;> decide
    rw [collectDigits, if_neg (by simp [noDigit]), if_neg noPoint]

theorem collectDigits_same {text other : List Char} (alike : tight text = tight other)
    (draft : Numeral.Draft) (passed passed' : List Char) :
    (collectDigits draft passed text).1 = (collectDigits draft passed' other).1 ∧
      tight (collectDigits draft passed text).2.ahead =
        tight (collectDigits draft passed' other).2.ahead := by
  induction text generalizing draft passed passed' other with
  | nil =>
    rcases heads_of_tight alike with ⟨c, rest, rest', -, absurd, -⟩ | ⟨gapped, gapped'⟩
    · cases absurd
    · rw [collectDigits_of_gapped gapped, collectDigits_of_gapped gapped']
      exact ⟨rfl, alike⟩
  | cons c rest ih =>
    rcases heads_of_tight alike with ⟨_, _, rest', kept, ⟨⟩, rfl, behind⟩ | ⟨gapped, gapped'⟩
    · rw [collectDigits, collectDigits]
      split
      · exact ih behind _ _ _
      · split
        · cases draft.pushPoint with
          | error e => exact ⟨rfl, behind⟩
          | ok pointed => exact ih behind _ _ _
        · exact ⟨rfl, alike⟩
    · rw [collectDigits_of_gapped gapped, collectDigits_of_gapped gapped']
      exact ⟨rfl, alike⟩

theorem digits_match (draft : Numeral.Draft) (alike : tight c.ahead = tight c'.ahead) :
    Reader.Matches (.done (digits draft c)) (.done (digits draft c')) := by
  obtain ⟨collected, unread⟩ := collectDigits_same alike draft c.passed c'.passed
  have same : (digits draft c).result = (digits draft c').result := by
    rw [digits_result, collected, digits_result]
  change Reader.Matches (Reader.settled (digits draft c).result _ (digits draft c).forward)
    (Reader.settled (digits draft c').result _ (digits draft c').forward)
  rw [same]
  exact .settled (normal_of_tight unread)

/-! ## Behind a group or an argument -/

theorem closeGroup_match (x : Float) {forward : (closeGroup x c).2.ahead.length ≤ c.ahead.length}
    {forward' : (closeGroup x c').2.ahead.length ≤ c'.ahead.length}
    (alike : normal c.ahead = normal c'.ahead) :
    Reader.Matches (Reader.settled (closeGroup x c).1 (closeGroup x c).2 forward : Reader Float c)
      (Reader.settled (closeGroup x c').1 (closeGroup x c').2 forward' : Reader Float c') := by
  by_cases close : ∃ rest, skip c.ahead = ')' :: rest
  · obtain ⟨rest, here⟩ := close
    obtain ⟨rest', there, behind⟩ := exists_cons_of_normal alike here
    obtain ⟨value, unread⟩ := closeGroup_of_close x here
    obtain ⟨value', unread'⟩ := closeGroup_of_close x there
    rw [value, value']
    refine .value ?_
    rw [unread, unread', normal_skip, normal_skip, normal_of_tight behind]
  · have other := not_exists.1 close
    obtain ⟨e, failed⟩ := closeGroup_of_other x other
    obtain ⟨e', failed'⟩ := closeGroup_of_other x (ne_cons_of_normal alike other)
    rw [failed, failed']
    exact .failure

theorem furtherArguments_match (x : Float) (alike : normal c.ahead = normal c'.ahead)
    (others : ∀ d, separator c = (.ok true, d) → ∀ d', normal d.ahead = normal d'.ahead →
      Reader.Matches (argumentList v d) (argumentList v d')) :
    Reader.Matches (furtherArguments v x c) (furtherArguments v x c') := by
  by_cases comma : ∃ rest, skip c.ahead = ',' :: rest
  · obtain ⟨rest, here⟩ := comma
    obtain ⟨rest', there, behind⟩ := exists_cons_of_normal alike here
    obtain ⟨d, unread, more⟩ := separator_of_comma here
    obtain ⟨d', unread', more'⟩ := separator_of_comma there
    rw [furtherArguments_of_more more, furtherArguments_of_more more']
    refine Reader.Matches.since ?_
    have list := others d more d' (by rw [unread, unread', normal_of_tight behind])
    exact list.andThen fun xs e _ e' _ same => .value same
  have noComma := not_exists.1 comma
  by_cases close : ∃ rest, skip c.ahead = ')' :: rest
  · obtain ⟨rest, here⟩ := close
    obtain ⟨rest', there, behind⟩ := exists_cons_of_normal alike here
    obtain ⟨d, unread, closed⟩ := separator_of_close here
    obtain ⟨d', unread', closed'⟩ := separator_of_close there
    rw [furtherArguments_of_last closed, furtherArguments_of_last closed']
    refine .value ?_
    rw [unread, unread', normal_skip, normal_skip, normal_of_tight behind]
  · have noClose := not_exists.1 close
    obtain ⟨e, d, failed⟩ := separator_of_other noComma noClose
    obtain ⟨e', d', failed'⟩ :=
      separator_of_other (ne_cons_of_normal alike noComma) (ne_cons_of_normal alike noClose)
    rw [furtherArguments_of_error failed, furtherArguments_of_error failed']
    exact .failure

/-! ## Blank texts -/

/-- Where nothing but a gap is left, a chain fails at once. -/
theorem chain_of_blank (blank : skip c.ahead = []) (tier : Tier) :
    ∃ e d le, chain v tier c = .failure e d le := by
  obtain ⟨e, d, le, failed⟩ : ∃ e d le, factor v c = .failure e d le :=
    ⟨_, _, _, factor_of_error (next_of_skip_nil blank)⟩
  have factors : chain v .factor c = .failure e d le := by
    rw [chain, operand, failed]
    rfl
  have monomials : chain v .monomial c = .failure e d le := by
    rw [chain, operand, factors]
    rfl
  cases tier with
  | factor => exact ⟨e, d, le, factors⟩
  | monomial => exact ⟨e, d, le, monomials⟩
  | polynomial =>
    refine ⟨e, d, le, ?_⟩
    rw [chain, operand, monomials]
    rfl

/-- An argument fails there at once, too, whether or not the text is over. -/
theorem argumentList_of_blank (blank : skip c.ahead = []) :
    ∃ e d le, argumentList v c = .failure e d le := by
  by_cases ended : c.isOver = true
  · exact ⟨_, _, _, argumentList_of_over ended⟩
  · obtain ⟨e, d, le, failed⟩ := chain_of_blank (v := v) blank .polynomial
    refine ⟨e, d, le, ?_⟩
    rw [argumentList_of_more ended, failed]
    rfl

end

/-! ## The rules side by side -/

/-- Over names without gaps each rule reads alike where the normal forms agree; a number does
    where the tight forms do. -/
theorem rules_match {v : Vocabulary} (whole : v.Whole) :
    (∀ tier c, ∀ c', normal c.ahead = normal c'.ahead →
        Reader.Matches (chain v tier c) (chain v tier c')) ∧
      (∀ tier x c, ∀ c', normal c.ahead = normal c'.ahead →
        Reader.Matches (chainRest v tier x c) (chainRest v tier x c')) ∧
      (∀ tier c, ∀ c', normal c.ahead = normal c'.ahead →
        Reader.Matches (operand v tier c) (operand v tier c')) ∧
      (∀ c, ∀ c', normal c.ahead = normal c'.ahead → Reader.Matches (factor v c) (factor v c')) ∧
      (∀ c, ∀ c', tight c.ahead = tight c'.ahead → Reader.Matches (number v c) (number v c')) ∧
      (∀ sign c, ∀ c', tight c.ahead = tight c'.ahead →
        Reader.Matches (numberAfter v sign c) (numberAfter v sign c')) ∧
      (∀ c, ∀ c', normal c.ahead = normal c'.ahead →
        Reader.Matches (arguments v c) (arguments v c')) ∧
      ∀ c, ∀ c', normal c.ahead = normal c'.ahead →
        Reader.Matches (argumentList v c) (argumentList v c') := by
  -- By the recursion of the rules at the first position; the second one follows it.
  apply chain.mutual_induct v
  case case1 =>
    intro tier c first rest c' alike
    rw [chain, chain]
    exact (first c' alike).andThen fun x d le d' _ same => rest x d le d' same
  case case2 =>
    intro tier x c missed c' alike
    have missed' := (takeOperator?_same whole alike tier).eq_none missed
    rw [chainRest, chainRest, missed, missed']
    exact .value alike
  case case3 =>
    intro tier x c taken found right rest c' alike
    obtain ⟨taken', found', name, declaration, unread⟩ :=
      (takeOperator?_same whole alike tier).exists_some found
    rw [chainRest, chainRest, found, found']
    refine Reader.Matches.since ?_
    refine (right _ (normal_of_tight unread)).andThen fun y d le d' _ same => ?_
    rw [name, declaration]
    exact .ask fun z => rest d le z d' same
  case case4 | case5 | case6 =>
    intro c operands c' alike
    rw [operand, operand]
    exact operands c' alike
  case case7 =>
    intro c e d failed c' alike
    obtain ⟨e', d', failed'⟩ := exists_failed_of_normal alike failed
    rw [factor_of_error failed, factor_of_error failed']
    exact .failure
  case case8 =>
    intro c d opened polynomial c' alike
    obtain ⟨d', opened', behind, -⟩ := exists_next_of_normal alike opened
    rw [factor_of_group opened, factor_of_group opened']
    refine Reader.Matches.since ?_
    refine (polynomial d' (normal_of_tight behind)).andThen fun x e _ e' _ same => ?_
    exact closeGroup_match x same
  case case9 =>
    intro c first d begins other inner c' alike
    obtain ⟨d', begins', -, back⟩ := exists_next_of_normal alike begins
    rw [factor_of_number begins other, factor_of_number begins' other]
    exact (inner _ back).since
  case case10 =>
    intro c missed unsigned c' alike
    have missed' := (takeSign?_same (normal_of_tight alike)).eq_none missed
    rw [number, number, missed, missed']
    exact unsigned c' alike
  case case11 =>
    intro c taken found signed c' alike
    obtain ⟨taken', found', -, declaration, unread⟩ :=
      (takeSign?_same (normal_of_tight alike)).exists_some found
    rw [number, number, found, found']
    dsimp only
    rw [declaration]
    exact (signed _ unread).since
  case case12 =>
    intro sign c taken found inside c' alike
    obtain ⟨taken', found', name, declaration, unread⟩ :=
      (takeFunction?_same whole (normal_of_tight alike)).exists_some found
    rw [numberAfter, numberAfter, found, found']
    refine Reader.Matches.since ?_
    refine (inside _ (normal_of_tight unread)).andThen fun xs d _ d' _ same => ?_
    rw [name, declaration]
    exact .ask fun x => .settled same
  case case13 =>
    intro sign c noFunction taken found c' alike
    have noFunction' := (takeFunction?_same whole (normal_of_tight alike)).eq_none noFunction
    obtain ⟨taken', found', -, declaration, unread⟩ :=
      (takeConstant?_same whole (normal_of_tight alike)).exists_some found
    rw [numberAfter, numberAfter, noFunction, noFunction', found, found']
    dsimp only
    rw [declaration]
    exact .settled (normal_of_tight unread)
  case case14 =>
    intro sign c noFunction noConstant group polynomial c' alike
    have noFunction' := (takeFunction?_same whole (normal_of_tight alike)).eq_none noFunction
    have noConstant' := (takeConstant?_same whole (normal_of_tight alike)).eq_none noConstant
    have group' : sign.isSome = true ∧ startsGroup c' = true := by
      refine ⟨group.1, ?_⟩
      rw [startsGroup_ahead, ← startsGroup_of_normal (normal_of_tight alike), ← startsGroup_ahead]
      exact group.2
    rw [numberAfter, numberAfter, noFunction, noFunction', noConstant, noConstant']
    simp only [group, group', and_self, dite_true]
    exact (polynomial c' (normal_of_tight alike)).andThen fun x d _ d' _ same => .settled same
  case case15 =>
    intro sign c noFunction noConstant noGroup c' alike
    have noFunction' := (takeFunction?_same whole (normal_of_tight alike)).eq_none noFunction
    have noConstant' := (takeConstant?_same whole (normal_of_tight alike)).eq_none noConstant
    have noGroup' : ¬ (sign.isSome = true ∧ startsGroup c' = true) := by
      rwa [startsGroup_ahead, ← startsGroup_of_normal (normal_of_tight alike), ← startsGroup_ahead]
    rw [numberAfter, numberAfter, noFunction, noFunction', noConstant, noConstant']
    simp only [noGroup, noGroup', dite_false]
    exact digits_match _ alike
  case case16 =>
    intro c missed c' alike
    have missed' := accept?_eq_none_of_normal (by decide) alike missed
    rw [arguments_of_missing missed, arguments_of_missing missed']
    exact .failure
  case case17 =>
    intro c d opened e closed c' alike
    obtain ⟨d', opened', unread⟩ := exists_accept?_of_normal (by decide) alike opened
    obtain ⟨e', closed', behind⟩ :=
      exists_accept?_of_normal (by decide) (normal_of_tight unread) closed
    rw [arguments_of_closed opened closed, arguments_of_closed opened' closed']
    exact .value (normal_of_tight behind)
  case case18 =>
    intro c d opened more list c' alike
    obtain ⟨d', opened', unread⟩ := exists_accept?_of_normal (by decide) alike opened
    have more' := accept?_eq_none_of_normal (by decide) (normal_of_tight unread) more
    rw [arguments_of_more opened more, arguments_of_more opened' more']
    exact (list d' (normal_of_tight unread)).since
  case case19 =>
    intro c ended c' alike
    have blank : skip c'.ahead = [] := by
      rcases heads_of_normal alike with ⟨found, rest, rest', here, -⟩ | ⟨-, there⟩
      · rw [List.isEmpty_iff.1 ended] at here
        cases here
      · exact there
    obtain ⟨e, d, le, failed⟩ := argumentList_of_blank (v := v) blank
    rw [argumentList_of_over ended, failed]
    exact .failure
  case case20 =>
    intro c more polynomial others c' alike
    rcases heads_of_normal alike with ⟨found, rest, rest', -, there, -⟩ | ⟨here, there⟩
    · rw [argumentList_of_more more, argumentList_of_nonblank (there ▸ List.cons_ne_nil _ _)]
      refine (polynomial c' alike).andThen fun x d le d' _ same => ?_
      exact furtherArguments_match x same fun e comma => others d le e comma
    · obtain ⟨e, d, le, failed⟩ := argumentList_of_blank (v := v) here
      obtain ⟨e', d', le', failed'⟩ := argumentList_of_blank (v := v) there
      rw [failed, failed']
      exact .failure

/-! ## Whole expressions -/

section

variable {v : Vocabulary}

theorem expression_of_blank {text : String} (blank : skip text.toList = []) :
    ∃ e d le, expression v (.ofString text) = .failure e d le := by
  by_cases empty : text.toList = []
  · exact ⟨_, _, _, expression_of_over empty⟩
  · obtain ⟨e, d, le, failed⟩ := chain_of_blank (v := v) (c := .ofString text) blank .polynomial
    rw [expression_of_nonempty empty, failed]
    exact ⟨e, d, le, rfl⟩

theorem ending_match (x : Float) {c c' : Cursor} (alike : normal c.ahead = normal c'.ahead) :
    Reader.Matches (ending x c) (ending x c') := by
  have unread : normal c.skipIgnored.ahead = normal c'.skipIgnored.ahead := by
    rw [skipIgnored_ahead, skipIgnored_ahead, normal_skip, normal_skip, alike]
  have same : c.skipIgnored.isOver = c'.skipIgnored.isOver := by
    rw [Cursor.isOver, skipIgnored_ahead, Cursor.isOver, skipIgnored_ahead]
    rcases heads_of_normal alike with ⟨found, rest, rest', here, there, -⟩ | ⟨here, there⟩
    · rw [here, there]
      rfl
    · rw [here, there]
  rw [ending, ending, same]
  split
  · exact .value unread
  · exact .failure

theorem expression_match (whole : v.Whole) {text other : String}
    (alike : normal text.toList = normal other.toList) :
    Reader.Matches (expression v (.ofString text)) (expression v (.ofString other)) := by
  rcases heads_of_normal alike with ⟨found, rest, rest', here, there, -⟩ | ⟨here, there⟩
  · have nonempty := ne_nil_of_skip (here ▸ List.cons_ne_nil found rest)
    have nonempty' := ne_nil_of_skip (there ▸ List.cons_ne_nil found rest')
    rw [expression_of_nonempty nonempty, expression_of_nonempty nonempty']
    have polynomial :=
      (rules_match whole).1 .polynomial (.ofString text) (.ofString other) alike
    exact polynomial.andThen fun x c _ c' _ same => ending_match x same
  · obtain ⟨e, d, le, failed⟩ := expression_of_blank (v := v) here
    obtain ⟨e', d', le', failed'⟩ := expression_of_blank (v := v) there
    rw [failed, failed']
    exact .failure

end

theorem toOption_eq_some_iff {result : EvaluationResult} {x : Float} :
    result.toOption = some x ↔ result = .ok x := by
  cases result <;> simp [Except.toOption]

/-- The text with one space for each gap, and none at its ends. -/
def normalize (text : String) : String := String.ofList (trimmed (collapse text.toList))

/-- Each course of the evaluation of one text is, but for the places, one of the other: with
    the same calls in the same order, the same answers, and the same value or none. -/
def Simulates (v : Vocabulary) (text other : String) : Prop :=
  ∀ made reading, (expression v (.ofString text)).Course made reading →
    ∃ made' reading', (expression v (.ofString other)).Course made' reading' ∧
      made'.map Exchange.unplaced = made.map Exchange.unplaced ∧
        reading'.result.toOption = reading.result.toOption

/-- The evaluations of two texts cannot be told apart by their calls and values. -/
structure Interchangeable (v : Vocabulary) (text other : String) : Prop where
  value : ∀ answers x, evaluate (m := Id) answers v text = .ok x ↔
    evaluate (m := Id) answers v other = .ok x
  /-- Also where callables keep something from one call to the next. -/
  run : ∀ {m : Type → Type} [Monad m] [LawfulMonad m] (answer : Call → m CallResult),
    Except.toOption <$> evaluate answer v text = Except.toOption <$> evaluate answer v other
  forth : Simulates v text other
  back : Simulates v other text

/-- Over names without ignored characters a text is evaluated as its normal form. -/
theorem interchangeable_normalize {v : Vocabulary} (whole : v.Whole) (text : String) :
    Interchangeable v text (normalize text) := by
  have alike : normal text.toList = normal (normalize text).toList := by
    rw [normalize, String.toList_ofList, trimmed_collapse, normal_normal]
  have same := expression_match whole alike
  have run : ∀ {m : Type → Type} [Monad m] [LawfulMonad m] (answer : Call → m CallResult),
      Except.toOption <$> evaluate answer v text =
        Except.toOption <$> evaluate answer v (normalize text) := by
    intro m _ _ answer
    simpa only [evaluate, read, Functor.map_map] using same.run answer
  refine ⟨fun answers x => ?_, run, fun made reading => same.course,
    fun made reading => same.symm.course⟩
  have options : (evaluate (m := Id) answers v text).toOption =
      (evaluate (m := Id) answers v (normalize text)).toOption := run (m := Id) answers
  rw [← toOption_eq_some_iff, options, toOption_eq_some_iff]

/-- No standard name holds an ignored character, so a call may be spread over lines. -/
theorem interchangeable_spread_call :
    Standard.vocabulary.Whole ∧ normalize " max (1,\n  2 )\n" = "max (1, 2 )" ∧
      Interchangeable Standard.vocabulary " max (1,\n  2 )\n"
        (normalize " max (1,\n  2 )\n") := by
  have whole : Standard.vocabulary.Whole := by
    intro kind
    cases kind <;> decide
  exact ⟨whole, by decide, interchangeable_normalize whole _⟩

end Grammar

end Calculator
