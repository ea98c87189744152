import Calculator.Proofs.Evaluation.Branches
import Calculator.Proofs.Evaluation.Course

/-!
# Where failures arise

A text fails where some rule fails by itself: for a missing operand, for what stands behind
a group or an argument, for a number that cannot be read, or with a call. The other failures
that could be thought of have no rule to arise in. Characters are taken at four kinds of
places, and only where an operand has to begin can there be none left.
-/
namespace Calculator

/-- Whether a failure is one that a rule has of its own, apart from a missing operand. -/
def EvaluationError.isOfRule : EvaluationError → Bool
  | .unclosedGroup | .unclosedGroupAt _ | .unclosedArguments | .missingSeparator _
  | .malformedNumeral _ | .secondPoint _ | .callFailed _ _ | .operatorFailed _ _ _ => true
  | _ => false

/-- Whether a failure is one of an expression as a whole. -/
def EvaluationError.isOfWhole : EvaluationError → Bool
  | .emptyExpression | .trailing _ => true
  | _ => false

theorem EvaluationError.kind_of_own {e : EvaluationError}
    (own : e.isOfRule = true ∨ e.isOfWhole = true) :
    e.kind = .malformed ∨ e.kind = .numeral ∧ e.source? = none ∨ e.kind = .call ∨
      e.kind = .operator := by
  cases e <;>
    first
    | exact .inl rfl
    | exact .inr (.inl ⟨rfl, rfl⟩)
    | exact .inr (.inr (.inl rfl))
    | exact .inr (.inr (.inr rfl))
    | exact own.elim nofun nofun

namespace Reader

variable {α β : Type} {start : Cursor} {P Q : EvaluationError → Cursor → Prop}

/-- Every failure of the reading, under whatever answers, is of a kind at a position. -/
inductive FailsOnly (P : EvaluationError → Cursor → Prop) : Reader α start → Prop where
  | done {reading : Reading α start} (failing : ∀ e, reading.result = .error e → P e reading.cursor) :
      FailsOnly P (.done reading)
  | call {request : Call} {site : Site} {resume : CallResult → Reader α start}
      (answered : ∀ answer, FailsOnly P (resume answer)) : FailsOnly P (.call request site resume)

theorem FailsOnly.value {x : α} {c : Cursor} {forward : c.ahead.length ≤ start.ahead.length} :
    FailsOnly P (value x c forward : Reader α start) := .done nofun

theorem FailsOnly.failure {e : EvaluationError} {c : Cursor}
    {forward : c.ahead.length ≤ start.ahead.length} (failing : P e c) :
    FailsOnly P (failure e c forward : Reader α start) :=
  .done fun _ same => Except.error.inj same ▸ failing

theorem FailsOnly.mono {p : Reader α start} (fails : FailsOnly P p)
    (weaker : ∀ e c, P e c → Q e c) : FailsOnly Q p := by
  induction fails with
  | done failing => exact .done fun e failed => weaker e _ (failing e failed)
  | call _ ih => exact .call ih

theorem FailsOnly.since {p : Reader α start} (fails : FailsOnly P p) {earlier : Cursor}
    (le : start.ahead.length ≤ earlier.ahead.length) : FailsOnly P (p.since earlier le) := by
  induction fails with
  | done failing => exact .done failing
  | call _ ih => exact .call ih

/-- What reads on fails as the first reading does, or as the second does where that ended. -/
theorem FailsOnly.andThen {p : Reader α start}
    {next : (x : α) → (c : Cursor) → c.ahead.length ≤ start.ahead.length → Reader β c}
    (fails : FailsOnly P p) (continued : ∀ x c le, Ends p x c → FailsOnly P (next x c le)) :
    FailsOnly P (p.andThen next) := by
  induction fails with
  | @done reading failing =>
    obtain ⟨result, c, forward⟩ := reading
    cases result with
    | error e => exact .failure (failing e rfl)
    | ok x => exact (continued x c forward .done).since forward
  | call _ ih => exact .call fun answer => ih answer fun x c le ends => continued x c le (.call ends)

theorem FailsOnly.ask {place : Nat} {request : Call} {next : Float → Reader α start}
    (failing : ∀ cause, P (request.failure cause) start)
    (continued : ∀ x, FailsOnly P (next x)) : FailsOnly P (ask place request next) := by
  refine .call fun answer => ?_
  cases answer with
  | error cause => exact .failure (failing cause)
  | ok x => exact continued x

/-- A course that ends with a failure ends with one of the kind. -/
theorem FailsOnly.course {p : Reader α start} (fails : FailsOnly P p) {exchanges : List Exchange}
    {reading : Reading α start} (course : p.Course exchanges reading) {e : EvaluationError}
    (failed : reading.result = .error e) : P e reading.cursor := by
  induction course with
  | done reading =>
    cases fails with
    | done failing => exact failing e failed
  | call _ ih =>
    cases fails with
    | call answered => exact ih (answered _) failed

end Reader

namespace Grammar

/-! ## Characters that are taken -/

/-- A rule takes a character at a position, past ignored characters or not. -/
inductive Takes (v : Vocabulary) : Rule × Cursor → Cursor → Bool → Prop where
  /-- Where an operand begins. -/
  | operand (c : Cursor) : Takes v (.at .factor, c) c true
  /-- Behind the polynomial of a group, unless the text is over. -/
  | behindGroup {c d e : Cursor} {x : Float} (opened : c.next true = (.ok '(', d))
      (read : Reader.Ends (chain v .polynomial d) x e) (more : e.skipIgnored.isOver = false) :
      Takes v (.at .factor, c) e.skipIgnored true
  /-- Behind an argument, unless the text is over. -/
  | behindArgument {c d : Cursor} {x : Float} (read : Reader.Ends (chain v .polynomial c) x d)
      (more : d.skipIgnored.isOver = false) : Takes v (.list, c) d.skipIgnored true
  /-- Among digits, unless the text is over. -/
  | digit {c : Cursor} (more : c.isOver = false) : Takes v (.digits, c) c false

/-- Before the end of the text there is a character to take. -/
theorem exists_next_of_more {c : Cursor} (more : c.isOver = false) :
    ∃ found d, c.next false = (.ok found, d) ∧ d.retreat = c := by
  obtain ⟨passed, ahead⟩ := c
  cases ahead with
  | nil => exact nomatch more
  | cons found rest => exact ⟨found, ⟨found :: passed, rest⟩, rfl, rfl⟩

/-- Behind the ignored characters, too, unless only these were left. -/
theorem exists_next_of_skipIgnored {c : Cursor} (more : c.skipIgnored.isOver = false) :
    ∃ found d, c.skipIgnored.next true = (.ok found, d) := by
  cases ahead : Unread.skip c.ahead with
  | nil =>
    rw [isOver_of_skip_nil ahead] at more
    cases more
  | cons found rest =>
    obtain ⟨-, passed, next⟩ := next_past_ignored ahead
    exact ⟨found, ⟨found :: passed, rest⟩, next⟩

/-- Where a character is missing, the text is over. -/
theorem end_of_next {c d : Cursor} {past : Bool} {e : EvaluationError}
    (failed : c.next past = (.error e, d)) : ∃ place, e = .endOfInput place := by
  unfold Cursor.next at failed
  dsimp only at failed
  split at failed
  · cases failed
    exact ⟨_, rfl⟩
  · cases failed

/-- Only where an operand has to begin can a character be missing. -/
theorem Takes.operand_of_error {v : Vocabulary} {a : Rule × Cursor} {c d : Cursor} {past : Bool}
    {e : EvaluationError} (takes : Takes v a c past) (failed : c.next past = (.error e, d)) :
    a = (.at .factor, c) ∧ past = true := by
  cases takes with
  | operand c => exact ⟨rfl, rfl⟩
  | behindGroup opened read more =>
    obtain ⟨found, d, next⟩ := exists_next_of_skipIgnored more
    cases next.symm.trans failed
  | behindArgument read more =>
    obtain ⟨found, d, next⟩ := exists_next_of_skipIgnored more
    cases next.symm.trans failed
  | digit more =>
    obtain ⟨found, d, next, -⟩ := exists_next_of_more more
    cases next.symm.trans failed

/-- What becomes of a character among digits: a digit or a first point is collected, and
    before any other the position moves back. -/
def collectNext (draft : Numeral.Draft) :
    Except EvaluationError Char × Cursor → Except EvaluationError Numeral.Draft × Cursor
  | (.error e, d) => (.error e, d)
  | (.ok found, d) =>
    if Character.isDigit found then collectDigits (draft.pushDigit found) d.passed d.ahead
    else if found = '.' then
      match draft.pushPoint with
      | .error e => (.error e, d)
      | .ok pointed => collectDigits pointed d.passed d.ahead
    else (.ok draft, d.retreat)

/-- Digits are collected by taking one character after another. -/
theorem collectDigits_eq (draft : Numeral.Draft) (c : Cursor) :
    collectDigits draft c.passed c.ahead =
      if c.isOver then (.ok draft, c) else collectNext draft (c.next false) := by
  obtain ⟨passed, ahead⟩ := c
  cases ahead with
  | nil => rfl
  | cons found rest => rw [collectDigits]; rfl

/-! ## Failures of single rules -/

theorem isOfRule_of_closeGroup {x : Float} {c : Cursor} {e : EvaluationError}
    (failed : (closeGroup x c).1 = .error e) : e.isOfRule = true := by
  unfold closeGroup at failed
  dsimp only at failed
  split at failed
  · cases failed
    rfl
  · rename_i more
    obtain ⟨found, d, next⟩ := exists_next_of_skipIgnored (eq_false_of_ne_true more)
    rw [next] at failed
    dsimp only at failed
    split at failed
    · cases failed
    · cases failed
      rfl

theorem isOfRule_of_separator {c : Cursor} {e : EvaluationError}
    (failed : (separator c).1 = .error e) : e.isOfRule = true := by
  unfold separator at failed
  dsimp only at failed
  split at failed
  · cases failed
    rfl
  · rename_i more
    obtain ⟨found, d, next⟩ := exists_next_of_skipIgnored (eq_false_of_ne_true more)
    rw [next] at failed
    dsimp only at failed
    split at failed
    · cases failed
    · split at failed
      · cases failed
      · cases failed
        rfl

theorem isOfRule_failure (request : Call) (cause : CallError) :
    (request.failure cause).isOfRule = true := by
  cases request with
  | operator name op x y => rfl
  | function name f xs => rfl

section

variable {sign : Option Char} {e : EvaluationError}

/-- What is collected as digits either is a numeral or lacks the shape of one. -/
theorem isOfRule_of_digits (optional : IsOptionalSign sign) {c : Cursor}
    (failed : (digits (.ofSign sign) c).result = .error e) : e.isOfRule = true := by
  rcases digits_exhaustive optional c.ahead with ⟨ds, behind, plain, ends, ahead⟩ | refused
  · obtain ⟨x, read⟩ := Numeral.exists_read_of_plain optional plain
    exact nomatch ((digits_of_plain plain ends ahead sign).1.trans read).symm.trans failed
  · obtain ⟨text, malformed | second⟩ := refused c rfl
    · cases malformed.symm.trans failed
      rfl
    · cases second.symm.trans failed
      rfl

/-- The text of a number behind a sign, too. -/
theorem isOfRule_of_pushValue (optional : IsOptionalSign sign) {x : Float}
    (failed : ((Numeral.Draft.ofSign sign).pushValue x).read = .error e) : e.isOfRule = true := by
  cases sign with
  | none => exact nomatch (Numeral.Draft.pushValue_read x).symm.trans failed
  | some sign =>
    have isSign := optional sign rfl
    cases negative : Number.isNegative x with
    | false => exact nomatch (Numeral.Draft.read_of_nonnegative isSign negative).symm.trans failed
    | true =>
      have number : x.isNaN = false := by
        rw [← Bool.not_eq_true]
        intro none
        exact nomatch (Numeral.isNegative_of_isNaN none).symm.trans negative
      cases (Numeral.Draft.read_of_negative isSign number negative).symm.trans failed
      rfl

end

/-- Behind the name of a function that is taken stands its opening parenthesis. -/
theorem exists_accept?_of_takeFunction? {v : Vocabulary} {c : Cursor} {taken : Taken Function c}
    (found : v.takeFunction? c = some taken) : ∃ d, taken.cursor.accept? "(" = some d := by
  have named := takeFunction?_map (v := v) c
  rw [found] at named
  obtain ⟨-, -, -, opens⟩ := Unread.of_first?_eq_some named.symm
  rw [Unread.opensParenthesis, ← Unread.accept?_ahead, Option.isSome_map,
    Option.isSome_iff_exists] at opens
  exact opens

/-! ## Where a failure arises -/

/-- A failure of a rule is one that some rule has of its own, or it arose where a factor was
    entered and no character could be taken. -/
def Arises (v : Vocabulary) (a : Rule × Cursor) (e : EvaluationError) (d : Cursor) : Prop :=
  e.isOfRule = true ∨
    ∃ c, Relation.ReflTransGen (Enters v) a (.at .factor, c) ∧ c.next true = (.error e, d)

theorem Arises.of_enters {v : Vocabulary} {a b : Rule × Cursor} (enters : Enters v a b)
    {e : EvaluationError} {d : Cursor} (arises : Arises v b e d) : Arises v a e d :=
  arises.imp_right fun ⟨c, entered, missing⟩ => ⟨c, .head enters entered, missing⟩

section

variable {v : Vocabulary} {a b : Rule × Cursor} {α : Type} {start c : Cursor}

/-- What the rule that is entered fails with, the rule that entered it fails with. -/
theorem failsOnly_of_enters {p : Reader α start} (enters : Enters v a b)
    (fails : Reader.FailsOnly (Arises v b) p) : Reader.FailsOnly (Arises v a) p :=
  fails.mono fun _ _ arises => arises.of_enters enters

theorem failsOnly_settled {result : Except EvaluationError α}
    {forward : c.ahead.length ≤ start.ahead.length}
    (own : ∀ e, result = .error e → e.isOfRule = true) :
    Reader.FailsOnly (Arises v a) (Reader.settled result c forward) :=
  .done fun e failed => .inl (own e failed)

theorem failsOnly_ask {place : Nat} {request : Call} {next : Float → Reader α start}
    (continued : ∀ x, Reader.FailsOnly (Arises v a) (next x)) :
    Reader.FailsOnly (Arises v a) (Reader.ask place request next) :=
  .ask (fun cause => .inl (isOfRule_failure request cause)) continued

theorem furtherArguments_failsOnly {d : Cursor} {x : Float} (more : c.isOver = false)
    (read : Reader.Ends (chain v .polynomial c) x d)
    (others : ∀ e, separator d = (.ok true, e) →
      Reader.FailsOnly (Arises v (.list, e)) (argumentList v e)) :
    Reader.FailsOnly (Arises v (.list, c)) (furtherArguments v x d) := by
  rcases separated : separator d with ⟨result, e⟩
  cases result with
  | error failure =>
    rw [furtherArguments_of_error separated]
    exact .failure (.inl (isOfRule_of_separator (congrArg Prod.fst separated)))
  | ok another =>
    cases another with
    | false =>
      rw [furtherArguments_of_last separated]
      exact .value
    | true =>
      rw [furtherArguments_of_more separated]
      refine Reader.FailsOnly.since ?_ _
      have list := failsOnly_of_enters (.further more read separated) (others e separated)
      exact list.andThen fun xs f _ _ => .value

end

/-- Every failure of a rule is one that a rule has of its own, or an operand was missing. -/
theorem rules_fail (v : Vocabulary) :
    (∀ tier c, Reader.FailsOnly (Arises v (.at (.chain tier), c)) (chain v tier c)) ∧
      (∀ tier x c, Reader.FailsOnly (Arises v (.operators tier, c)) (chainRest v tier x c)) ∧
      (∀ tier c, Reader.FailsOnly (Arises v (.at tier.operands, c)) (operand v tier c)) ∧
      (∀ c, Reader.FailsOnly (Arises v (.at .factor, c)) (factor v c)) ∧
      (∀ c, Reader.FailsOnly (Arises v (.number, c)) (number v c)) ∧
      (∀ sign c, IsOptionalSign sign →
        Reader.FailsOnly (Arises v (.behindSign sign, c)) (numberAfter v sign c)) ∧
      (∀ c, (∃ d, c.accept? "(" = some d) →
        Reader.FailsOnly (Arises v (.arguments, c)) (arguments v c)) ∧
      ∀ c, Reader.FailsOnly (Arises v (.list, c)) (argumentList v c) := by
  -- By the recursion of the rules. Arguments are read only where their parenthesis was seen.
  apply chain.mutual_induct v
  case case1 =>
    intro tier c first rest
    rw [chain]
    refine (failsOnly_of_enters (.operand tier c) first).andThen fun x d le ends => ?_
    rw [operand_eq_rule] at ends
    exact failsOnly_of_enters (.operators ends) (rest x d le)
  case case2 =>
    intro tier x c none
    rw [chainRest, none]
    exact .value
  case case3 =>
    intro tier x c taken found right rest
    rw [chainRest, found]
    refine Reader.FailsOnly.since ?_ _
    refine (failsOnly_of_enters (.right found) right).andThen fun y d le ends => ?_
    rw [operand_eq_rule] at ends
    exact failsOnly_ask fun z => failsOnly_of_enters (.others found ends) (rest d le z)
  case case4 | case5 | case6 =>
    intro c operands
    rw [operand]
    exact operands
  case case7 =>
    intro c e d missing
    rw [factor_of_error missing]
    exact .failure (.inr ⟨c, .refl, missing⟩)
  case case8 =>
    intro c d opened polynomial
    rw [factor_of_group opened]
    refine Reader.FailsOnly.since ?_ _
    refine (failsOnly_of_enters (.group opened) polynomial).andThen fun x e _ _ => ?_
    exact failsOnly_settled fun _ => isOfRule_of_closeGroup
  case case9 =>
    intro c first d begins other inner
    rw [factor_of_number begins other]
    exact (failsOnly_of_enters (.number begins other) inner).since _
  case case10 =>
    intro c none unsigned
    rw [number, none]
    exact failsOnly_of_enters (.unsigned none) (unsigned Numeral.isOptionalSign_none)
  case case11 =>
    intro c taken found signed
    rw [number, found]
    have inner := signed (isSign_of_takeSign? found)
    exact (failsOnly_of_enters (.signed found) inner).since _
  case case12 =>
    intro sign c taken found inside optional
    rw [numberAfter, found]
    refine Reader.FailsOnly.since ?_ _
    have values := inside (exists_accept?_of_takeFunction? found)
    refine (failsOnly_of_enters (.call found) values).andThen fun xs d _ _ => ?_
    exact failsOnly_ask fun x => failsOnly_settled fun _ => isOfRule_of_pushValue optional
  case case13 =>
    intro sign c noFunction taken found optional
    rw [numberAfter, noFunction, found]
    exact failsOnly_settled fun _ => isOfRule_of_pushValue optional
  case case14 =>
    intro sign c noFunction noConstant group polynomial optional
    rw [numberAfter, noFunction, noConstant]
    simp only [group, and_self, dite_true]
    have enters : Enters v (.behindSign sign, c) (.at (.chain .polynomial), c) :=
      .signedGroup noFunction noConstant group.2
    refine (failsOnly_of_enters enters polynomial).andThen fun x d _ _ => failsOnly_settled fun e failed => ?_
    exact absurd failed (Numeral.Draft.applySign_ne_error optional x)
  case case15 =>
    intro sign c noFunction noConstant noGroup optional
    rw [numberAfter, noFunction, noConstant]
    simp only [noGroup, dite_false]
    exact .done fun e failed => .inl (isOfRule_of_digits optional failed)
  case case16 =>
    rintro c none ⟨d, opened⟩
    cases none.symm.trans opened
  case case17 =>
    intro c d opened e closed _
    rw [arguments_of_closed opened closed]
    exact .value
  case case18 =>
    intro c d opened more list _
    rw [arguments_of_more opened more]
    exact (failsOnly_of_enters (.list opened more) list).since _
  case case19 =>
    intro c ended
    rw [argumentList_of_over ended]
    exact .failure (.inl rfl)
  case case20 =>
    intro c more polynomial others
    have going : c.isOver = false := eq_false_of_ne_true more
    rw [argumentList_of_more more]
    refine (failsOnly_of_enters (.argument going) polynomial).andThen fun x d le ends => ?_
    exact furtherArguments_failsOnly going ends fun e comma => others d le e comma

/-! ## Expressions -/

/-- While an expression is evaluated, a rule is entered at a position. -/
def Entered (v : Vocabulary) (text : String) : Rule × Cursor → Prop :=
  Relation.ReflTransGen (Enters v) (.at (.chain .polynomial), .ofString text)

theorem Entered.within {v : Vocabulary} {text : String} {a : Rule × Cursor}
    (entered : Entered v text a) : (Cursor.ofString text).Within a.2 := by
  induction entered with
  | refl => exact .refl _
  | tail _ enters ih => exact ih.trans enters.within

theorem expression_fails (v : Vocabulary) (text : String) :
    Reader.FailsOnly
      (fun e d => e.isOfWhole = true ∨ Arises v (.at (.chain .polynomial), .ofString text) e d)
      (expression v (.ofString text)) := by
  have fresh : (Cursor.ofString text).location = 0 := rfl
  rw [expression, if_neg (not_not_intro fresh)]
  split
  · exact .failure (.inl rfl)
  · have polynomial := (rules_fail v).1 .polynomial (.ofString text)
    refine (polynomial.mono fun _ _ => Or.inr).andThen fun x c _ _ => ?_
    dsimp only
    split
    · exact .value
    · exact .failure (.inl rfl)

/-- What a failed evaluation of a text can have failed with, and where it stopped. -/
structure Raised (v : Vocabulary) (text : String) (e : EvaluationError) (reached : Cursor) :
    Prop where
  idle : e.kind ≠ .reentrant
  number : e.kind ≠ .notANumber
  /-- A function is taken only in front of its parenthesis. -/
  opened : e ≠ .missingParentheses
  /-- What has the shape of a numeral is read as a number. -/
  read : ∀ written, e ≠ .refusedNumeral written
  numeral : e.kind = .numeral → e.source? = none
  /-- Past the end of the text only an operand is looked for, when nothing but ignored
      characters is left. -/
  missing : e.kind = .outOfRange → e = .endOfInput text.length ∧
    ∃ c, Entered v text (.at .factor, c) ∧ Unread.skip c.ahead = [] ∧
      c.next true = (.error e, reached)

theorem raised_of_own {v : Vocabulary} {text : String} {e : EvaluationError} {d : Cursor}
    (own : e.isOfRule = true ∨ e.isOfWhole = true) : Raised v text e d := by
  have other : e ≠ .missingParentheses ∧ ∀ written, e ≠ .refusedNumeral written := by
    refine ⟨?_, fun written => ?_⟩
    · rintro rfl
      exact own.elim nofun nofun
    · rintro rfl
      exact own.elim nofun nofun
  have kinds := EvaluationError.kind_of_own own
  refine ⟨fun kind => ?_, fun kind => ?_, other.1, other.2, fun kind => ?_, fun kind => ?_⟩
  all_goals rw [kind] at kinds
  · exact absurd kinds (by simp)
  · exact absurd kinds (by simp)
  · simpa using kinds
  · exact absurd kinds (by simp)

/-- At the end of a text the failure names the number of its characters. -/
theorem next_of_end {text : String} {c : Cursor} (within : (Cursor.ofString text).Within c)
    {e : EvaluationError} {d : Cursor} (ended : c.next true = (.error e, d)) :
    e = .endOfInput text.length ∧ Unread.skip c.ahead = [] := by
  cases ahead : Unread.skip c.ahead with
  | cons found rest =>
    obtain ⟨passed, next⟩ := next_of_skip_cons ahead
    cases next.symm.trans ended
  | nil =>
    refine ⟨?_, rfl⟩
    have kept : c.skipIgnored.text = text.toList := (Cursor.skipIgnored_text c).trans within.text
    have all : c.skipIgnored.location = text.length := by
      rw [← String.length_toList, ← kept, Cursor.text, Unread.skipIgnored_ahead, ahead,
        List.append_nil, List.length_reverse, Cursor.location]
    cases (next_of_skip_nil ahead).symm.trans ended
    rw [all]

theorem raised_of_missing {v : Vocabulary} {text : String} {c d : Cursor} {e : EvaluationError}
    (entered : Entered v text (.at .factor, c)) (ended : c.next true = (.error e, d)) :
    Raised v text e d := by
  obtain ⟨rfl, blank⟩ := next_of_end entered.within ended
  exact ⟨nofun, nofun, nofun, nofun, nofun, fun _ => ⟨rfl, c, entered, blank, ended⟩⟩

/-- The failures of an expression, and the places where no character can be missing. -/
structure FailsForReason (v : Vocabulary) (text : String) : Prop where
  /-- Whatever the callables answer. -/
  raised : ∀ {exchanges reading e}, (expression v (.ofString text)).Course exchanges reading →
    reading.result = .error e → Raised v text e reading.cursor
  /-- Of all that the rules take, only the first character of an operand can be missing. -/
  taken : ∀ {a c past e d}, Entered v text a → Takes v a c past → c.next past = (.error e, d) →
    a = (.at .factor, c)
  /-- Digits are taken one by one, as long as the text is not over. -/
  collected : ∀ draft (c : Cursor), collectDigits draft c.passed c.ahead =
    if c.isOver then (.ok draft, c) else collectNext draft (c.next false)

/-- An expression fails only for a reason of a rule or of the whole, and past its end only
    for an operand that is missing there. -/
theorem expression_fails_for_reason (v : Vocabulary) (text : String) : FailsForReason v text where
  raised course failed := by
    rcases (expression_fails v text).course course failed with whole | own | ⟨c, entered, ended⟩
    · exact raised_of_own (.inr whole)
    · exact raised_of_own (.inl own)
    · exact raised_of_missing entered ended
  taken _ takes failed := (takes.operand_of_error failed).1
  collected := collectDigits_eq

end Grammar

end Calculator
