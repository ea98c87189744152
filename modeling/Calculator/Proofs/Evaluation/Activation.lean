import Calculator.Proofs.Evaluation.Derivation
import Calculator.Proofs.Evaluation.Position

/-!
# Which rule enters which

A rule at a position enters other rules, at its own position or further on: behind what
it has taken, or where another rule ended with a value. Every such step leaves less
text ahead, or enters a rule of lower rank; so no rule enters others without end. What a
rule takes where it is entered settles its reading.
-/
namespace Calculator

/-- The reading ends with a value at a position, under some answers. -/
inductive Reader.Ends {α : Type} {start : Cursor} : Reader α start → α → Cursor → Prop where
  | done {x : α} {c : Cursor} {forward : c.ahead.length ≤ start.ahead.length} :
      Ends (.done ⟨.ok x, c, forward⟩) x c
  | call {request : Call} {site : Site} {resume : CallResult → Reader α start} {answer : CallResult}
      {x : α} {c : Cursor} (ends : Ends (resume answer) x c) : Ends (.call request site resume) x c

namespace Reader

variable {α β : Type} {start : Cursor}

theorem Ends.forward {p : Reader α start} {x : α} {c : Cursor} (ends : Ends p x c) :
    c.ahead.length ≤ start.ahead.length := by
  induction ends with
  | @done x c forward => exact forward
  | call _ ih => exact ih

theorem Ends.within {p : Reader α start} {x : α} {c : Cursor} (ends : Ends p x c)
    (keeps : Keeps p) : start.Within c := by
  induction ends with
  | done =>
    cases keeps with
    | done within _ => exact within
  | @call request site resume answer x c ends ih =>
    cases keeps with
    | call _ answered refused =>
      cases answer with
      | ok y => exact ih (answered y)
      | error cause =>
        obtain ⟨d, _, fails⟩ := refused cause
        rw [fails] at ends
        exact nomatch ends

@[simp] theorem ends_value_iff {x y : α} {c d : Cursor}
    {forward : c.ahead.length ≤ start.ahead.length} :
    Ends (value x c forward : Reader α start) y d ↔ y = x ∧ d = c := by
  constructor
  · rintro ⟨⟩
    exact ⟨rfl, rfl⟩
  · rintro ⟨rfl, rfl⟩
    exact .done

@[simp] theorem ends_since_iff {p : Reader α start} {earlier : Cursor}
    {h : start.ahead.length ≤ earlier.ahead.length} {x : α} {c : Cursor} :
    Ends (p.since earlier h) x c ↔ Ends p x c := by
  induction p with
  | done reading =>
    obtain ⟨result, d, forward⟩ := reading
    constructor
    · rintro ⟨⟩
      exact .done
    · rintro ⟨⟩
      exact .done
  | call request site resume ih =>
    constructor
    · rintro (_ | ends)
      exact .call ((ih _).1 ends)
    · rintro (_ | ends)
      exact .call ((ih _).2 ends)

/-- A reading that reads on ends where the second reading ends, behind an end of the first. -/
theorem ends_andThen_iff {p : Reader α start}
    {next : (x : α) → (c : Cursor) → c.ahead.length ≤ start.ahead.length → Reader β c} {y : β}
    {d : Cursor} :
    Ends (p.andThen next) y d ↔ ∃ x c le, Ends p x c ∧ Ends (next x c le) y d := by
  induction p with
  | done reading =>
    obtain ⟨result, c, forward⟩ := reading
    cases result with
    | error e =>
      constructor
      · rintro ⟨⟩
      · rintro ⟨x, c, le, ⟨⟩, -⟩
    | ok x =>
      refine ends_since_iff.trans ⟨fun ends => ⟨x, c, forward, .done, ends⟩, ?_⟩
      rintro ⟨_, _, _, ⟨⟩, ends⟩
      exact ends
  | call request site resume ih =>
    constructor
    · rintro (_ | ends)
      obtain ⟨x, c, le, first, second⟩ := (ih _).1 ends
      exact ⟨x, c, le, .call first, second⟩
    · rintro ⟨x, c, le, _ | first, second⟩
      exact .call ((ih _).2 ⟨x, c, le, first, second⟩)

/-- A call that fails ends nowhere. -/
theorem ends_ask_iff {place : Nat} {request : Call} {next : Float → Reader α start} {y : α}
    {d : Cursor} : Ends (ask place request next) y d ↔ ∃ x, Ends (next x) y d := by
  constructor
  · rintro (_ | @⟨_, _, _, answer, _, _, ends⟩)
    cases answer with
    | error e => cases ends
    | ok x => exact ⟨x, ends⟩
  · rintro ⟨x, ends⟩
    exact @Ends.call _ _ _ _ _ (.ok x) _ _ ends

/-- Only where the first reading ends does it matter how reading goes on. -/
theorem andThen_congr {p : Reader α start}
    {next other : (x : α) → (c : Cursor) → c.ahead.length ≤ start.ahead.length → Reader β c}
    (same : ∀ x c le, Ends p x c → next x c le = other x c le) :
    p.andThen next = p.andThen other := by
  induction p with
  | done reading =>
    obtain ⟨result, c, forward⟩ := reading
    cases result with
    | error e => rfl
    | ok x => exact congrArg (Reader.since start forward) (same x c forward .done)
  | call request site resume ih =>
    exact congrArg (Interaction.call request site)
      (funext fun answer => ih answer fun x c le ends => same x c le (.call ends))

end Reader

namespace Grammar

/-- The rules that read an expression. -/
inductive Rule where
  /-- A chain of a tier, or a factor. -/
  | at (level : Level)
  /-- The operators of a tier behind an operand. -/
  | operators (tier : Tier)
  | number
  | behindSign (sign : Option Char)
  | arguments
  /-- Arguments up to the closing parenthesis. -/
  | list
  | digits
  /-- Ignored characters, one after another. -/
  | skip

/-- While a rule reads at a position, it enters another rule at another position, and a
    rule that repeats itself enters itself. Where no name comes next, a number enters a group
    if a sign or a parenthesis does, whether or not it has a sign. -/
inductive Enters (v : Vocabulary) : Rule × Cursor → Rule × Cursor → Prop where
  | operand (tier : Tier) (c : Cursor) : Enters v (.at (.chain tier), c) (.at tier.operands, c)
  | operators {tier : Tier} {c d : Cursor} {x : Float}
      (first : Reader.Ends (rule v tier.operands c) x d) :
      Enters v (.at (.chain tier), c) (.operators tier, d)
  | right {tier : Tier} {c : Cursor} {taken : Taken Operator c}
      (found : v.takeOperator? tier c = some taken) :
      Enters v (.operators tier, c) (.at tier.operands, taken.cursor)
  | others {tier : Tier} {c d : Cursor} {taken : Taken Operator c} {y : Float}
      (found : v.takeOperator? tier c = some taken)
      (read : Reader.Ends (rule v tier.operands taken.cursor) y d) :
      Enters v (.operators tier, c) (.operators tier, d)
  | group {c d : Cursor} (opened : c.next true = (.ok '(', d)) :
      Enters v (.at .factor, c) (.at (.chain .polynomial), d)
  | number {c d : Cursor} {first : Char} (found : c.next true = (.ok first, d))
      (other : first ≠ '(') : Enters v (.at .factor, c) (.number, d.retreat)
  | unsigned {c : Cursor} (noSign : takeSign? c = none) :
      Enters v (.number, c) (.behindSign none, c)
  | signed {c : Cursor} {taken : Taken Char c} (found : takeSign? c = some taken) :
      Enters v (.number, c) (.behindSign (some taken.declaration), taken.cursor)
  | call {sign : Option Char} {c : Cursor} {taken : Taken Function c}
      (found : v.takeFunction? c = some taken) :
      Enters v (.behindSign sign, c) (.arguments, taken.cursor)
  | signedGroup {sign : Option Char} {c : Cursor} (noFunction : v.takeFunction? c = none)
      (noConstant : v.takeConstant? c = none) (group : startsGroup c = true) :
      Enters v (.behindSign sign, c) (.at (.chain .polynomial), c)
  | list {c d : Cursor} (opened : c.accept? "(" = some d) (more : d.accept? ")" = none) :
      Enters v (.arguments, c) (.list, d)
  | argument {c : Cursor} (more : c.isOver = false) :
      Enters v (.list, c) (.at (.chain .polynomial), c)
  | further {c d e : Cursor} {x : Float} (more : c.isOver = false)
      (read : Reader.Ends (chain v .polynomial c) x d) (comma : separator d = (.ok true, e)) :
      Enters v (.list, c) (.list, e)
  | digits {sign : Option Char} {c : Cursor} (noFunction : v.takeFunction? c = none)
      (noConstant : v.takeConstant? c = none) (noGroup : startsGroup c = false) :
      Enters v (.behindSign sign, c) (.digits, c)
  | digit {c d : Cursor} {found : Char} (next : c.next false = (.ok found, d))
      (part : Character.isDigit found = true ∨ found = '.') : Enters v (.digits, c) (.digits, d)
  | skip {other : Rule} {c d : Cursor} (reads : other ≠ .skip) (within : c.Within d) :
      Enters v (other, c) (.skip, d)
  | ignored {c d : Cursor} {found : Char} (next : c.next false = (.ok found, d))
      (ignored : Character.isIgnored found = true) : Enters v (.skip, c) (.skip, d)

/-! ## The rules do not enter each other without end -/

/-- Whether an opening parenthesis comes next. -/
def opens (c : Cursor) : Bool := (Unread.skip c.ahead).head? == some '('

/-- The rank of a rule among those that read the same text. -/
def rank : Rule × Cursor → Nat
  | (.at .factor, _) => 4
  | (.at (.chain tier), _) => chainRank tier + 1
  | (.operators _, _) => 1
  | (.number, c) => if opens c then 11 else 3
  | (.behindSign _, c) => if startsGroup c then 10 else 2
  | (.arguments, _) => 1
  | (.list, _) => 10
  | (.digits, _) => 1
  | (.skip, _) => 0

theorem rank_pos {r : Rule} (reads : r ≠ .skip) (c : Cursor) : 0 < rank (r, c) := by
  cases r with
  | «at» level => cases level <;> simp [rank]
  | operators tier => simp [rank]
  | number => cases opening : opens c <;> simp [rank, opening]
  | behindSign sign => cases group : startsGroup c <;> simp [rank, group]
  | arguments => simp [rank]
  | list => simp [rank]
  | digits => simp [rank]
  | skip => exact absurd rfl reads

/-- What decreases: the text ahead, and then the rank of the rule. -/
def measure (a : Rule × Cursor) : Nat × Nat := (a.2.ahead.length, rank a)

theorem measure_of_le {a b : Rule × Cursor} (forward : b.2.ahead.length ≤ a.2.ahead.length)
    (lower : rank b < rank a) : Prod.Lex (· < ·) (· < ·) (measure b) (measure a) := by
  rcases Nat.lt_or_eq_of_le forward with shorter | same
  · exact .left _ _ shorter
  · rw [measure, measure, same]
    exact .right _ lower

/-- Without a sign in front, only a parenthesis starts a group. -/
theorem opens_of_unsigned {c : Cursor} (unsigned : takeSign? c = none)
    (group : startsGroup c = true) : opens c = true := by
  rw [Unread.startsGroup_ahead, Unread.startsGroup] at group
  obtain ⟨first, rest, ahead, begins⟩ := Unread.exists_cons_of_head group
  rw [opens, ahead, List.head?_cons, beq_iff_eq, Option.some_inj]
  rw [Bool.or_eq_true, decide_eq_true_iff] at begins
  rcases begins with isSign | parenthesis
  · obtain ⟨name, found⟩ := signAt?_of_isSign ahead isSign
    rw [← takeSign?_map, unsigned] at found
    cases found
  · exact parenthesis

/-- A number that a factor enters begins with no parenthesis: the character that the factor
    took comes next again. -/
theorem opens_retreat {c d : Cursor} {first : Char} (found : c.next true = (.ok first, d))
    (other : first ≠ '(') : opens d.retreat = false := by
  cases ahead : Unread.skip c.ahead with
  | nil =>
    rw [next_of_skip_nil ahead] at found
    cases found
  | cons next rest =>
    obtain ⟨passed, taken⟩ := next_of_skip_cons ahead
    rw [taken] at found
    cases found
    rw [opens, Cursor.retreat, Unread.skip_cons (Unread.isIgnored_of_skip_eq_cons ahead)]
    simpa using other

/-- A number that a factor enters comes to a group only behind a sign. -/
theorem startsGroup_retreat {c d : Cursor} {first : Char} (found : c.next true = (.ok first, d))
    (other : first ≠ '(') (unsigned : takeSign? d.retreat = none) :
    startsGroup d.retreat = false := by
  cases group : startsGroup d.retreat with
  | false => rfl
  | true => exact (opens_of_unsigned unsigned group).symm.trans (opens_retreat found other)

/-- A rule enters others with less text ahead, or at a lower rank. -/
theorem Enters.measure_lt {v : Vocabulary} {a b : Rule × Cursor} (enters : Enters v a b) :
    Prod.Lex (· < ·) (· < ·) (measure b) (measure a) := by
  cases enters with
  | operand tier c =>
    refine measure_of_le (Nat.le_refl _) ?_
    cases tier <;> simp [rank, Tier.operands, chainRank]
  | @operators tier c d x first =>
    refine measure_of_le first.forward ?_
    cases tier <;> simp [rank, chainRank]
  | @right tier c taken found => exact .left _ _ taken.forward
  | @others tier c d taken y found read =>
    exact .left _ _ (Nat.lt_of_le_of_lt read.forward taken.forward)
  | group opened => exact .left _ _ (Cursor.next_ahead_lt opened)
  | @number c d first found other =>
    refine measure_of_le (Cursor.retreat_ahead_le found) ?_
    simp [rank, opens_retreat found other]
  | @unsigned c noSign =>
    refine measure_of_le (Nat.le_refl _) ?_
    cases group : startsGroup c with
    | false => cases opening : opens c <;> simp [rank, group, opening]
    | true => simp [rank, group, opens_of_unsigned noSign group]
  | @signed c taken found => exact .left _ _ taken.forward
  | @call sign c taken found => exact .left _ _ taken.forward
  | @signedGroup sign c noFunction noConstant group =>
    refine measure_of_le (Nat.le_refl _) ?_
    simp [rank, group, chainRank]
  | list opened more => exact .left _ _ (Cursor.accept?_ahead_lt opened (by decide))
  | argument more => exact measure_of_le (Nat.le_refl _) (by simp [rank, chainRank])
  | @further c d e x more read comma =>
    exact .left _ _ (Nat.lt_of_lt_of_le (separator_ahead_lt comma) read.forward)
  | @digits sign c noFunction noConstant noGroup =>
    refine measure_of_le (Nat.le_refl _) ?_
    simp [rank, noGroup]
  | digit next part => exact .left _ _ (Cursor.next_ahead_lt next)
  | skip reads within => exact measure_of_le within.forward (rank_pos reads _)
  | ignored next ignored => exact .left _ _ (Cursor.next_ahead_lt next)

theorem enters_wellFounded (v : Vocabulary) : WellFounded fun b a => Enters v a b :=
  Subrelation.wf Enters.measure_lt
    (InvImage.wf measure (WellFounded.prod_lex Nat.lt_wfRel.wf Nat.lt_wfRel.wf))

/-! ## The rules stay in the text -/

theorem rule_keeps (v : Vocabulary) (level : Level) (c : Cursor) :
    Reader.Keeps (rule v level c) := by
  cases level with
  | chain tier => exact (rules_keep v).1 tier c
  | factor => exact (rules_keep v).2.2.2.1 c

/-- A rule enters others in its own text, at its own position or further on. -/
theorem Enters.within {v : Vocabulary} {a b : Rule × Cursor} (enters : Enters v a b) :
    a.2.Within b.2 := by
  cases enters with
  | operand tier c => exact .refl c
  | operators first => exact first.within (rule_keeps v _ _)
  | right found => exact takeFirst?_within found
  | others found read => exact (takeFirst?_within found).trans (read.within (rule_keeps v _ _))
  | group opened => exact Cursor.within_of_next opened
  | @number c d first found other =>
    refine ⟨?_, Cursor.retreat_ahead_le found⟩
    exact (Cursor.retreat_text d).trans (Cursor.within_of_next found).text
  | unsigned noSign => exact .refl _
  | signed found => exact takeFirst?_within found
  | call found => exact takeFirst?_within found
  | signedGroup noFunction noConstant group => exact .refl _
  | list opened more => exact Cursor.within_of_accept? opened
  | argument more => exact .refl _
  | @further c d e x more read comma =>
    have behind := separator_within d
    rw [comma] at behind
    exact (read.within ((rules_keep v).1 .polynomial c)).trans behind
  | digits noFunction noConstant noGroup => exact .refl _
  | digit next part => exact Cursor.within_of_next next
  | skip reads within => exact within
  | ignored next ignored => exact Cursor.within_of_next next

/-! ## What is taken where rules are entered settles the reading -/

/-- Two vocabularies take the same names at a position. -/
structure Alike (v w : Vocabulary) (c : Cursor) : Prop where
  operators : ∀ tier, v.takeOperator? tier c = w.takeOperator? tier c
  functions : v.takeFunction? c = w.takeFunction? c
  constants : v.takeConstant? c = w.takeConstant? c

section

variable {v w : Vocabulary} {c : Cursor}

theorem factor_congr
    (group : ∀ d, c.next true = (.ok '(', d) → chain v .polynomial d = chain w .polynomial d)
    (other : ∀ first d, c.next true = (.ok first, d) → first ≠ '(' →
      number v d.retreat = number w d.retreat) : factor v c = factor w c := by
  rw [factor, factor]
  congr 1
  funext first d taken
  by_cases opened : first = '('
  · subst opened
    simp only [if_true, group d taken]
  · simp only [if_neg opened, other first d taken opened]

theorem arguments_congr
    (list : ∀ d, c.accept? "(" = some d → d.accept? ")" = none →
      argumentList v d = argumentList w d) : arguments v c = arguments w c := by
  rw [arguments, arguments]
  congr 1
  funext d opened
  congr 1
  funext more
  rw [list d opened more]

theorem furtherArguments_congr (x : Float)
    (others : ∀ d, separator c = (.ok true, d) → argumentList v d = argumentList w d) :
    furtherArguments v x c = furtherArguments w x c := by
  rw [furtherArguments, furtherArguments]
  congr 1
  funext d comma
  rw [others d comma]

theorem argumentList_of_more (more : ¬ c.isOver = true) :
    argumentList v c = (chain v .polynomial c).andThen fun x d _ => furtherArguments v x d := by
  rw [argumentList, if_neg more]
  rfl

end

/-- Where two vocabularies take the same names wherever rules are entered, every rule
    reads the same over both. -/
theorem rules_agree {v w : Vocabulary} {P : Rule × Cursor → Prop}
    (closed : ∀ {a b}, P a → Enters v a b → P b) (alike : ∀ {a}, P a → Alike v w a.2) :
    (∀ tier c, P (.at (.chain tier), c) → chain v tier c = chain w tier c) ∧
      (∀ tier x c, P (.operators tier, c) → chainRest v tier x c = chainRest w tier x c) ∧
      (∀ tier c, P (.at tier.operands, c) → operand v tier c = operand w tier c) ∧
      (∀ c, P (.at .factor, c) → factor v c = factor w c) ∧
      (∀ c, P (.number, c) → number v c = number w c) ∧
      (∀ sign c, P (.behindSign sign, c) → numberAfter v sign c = numberAfter w sign c) ∧
      (∀ c, P (.arguments, c) → arguments v c = arguments w c) ∧
      ∀ c, P (.list, c) → argumentList v c = argumentList w c := by
  -- By the recursion of the rules over `v`: in each case `closed` hands `P` on to what is entered.
  apply chain.mutual_induct v
  case case1 =>
    intro tier c first rest entered
    rw [chain, chain, ← first (closed entered (.operand tier c))]
    refine Reader.andThen_congr fun x d le ends => ?_
    rw [operand_eq_rule] at ends
    exact rest x d le (closed entered (.operators ends))
  case case2 =>
    intro tier x c none entered
    rw [chainRest, chainRest, ← (alike entered).operators, none]
  case case3 =>
    intro tier x c taken found right rest entered
    rw [chainRest, chainRest, ← (alike entered).operators, found]
    refine congrArg (Reader.since c _) ?_
    rw [← right (closed entered (.right found))]
    refine Reader.andThen_congr fun y d le ends => ?_
    rw [operand_eq_rule] at ends
    refine congrArg (Reader.ask _ _) (funext fun z => ?_)
    exact rest d le z (closed entered (.others found ends))
  case case4 | case5 | case6 =>
    intro c operands entered
    rw [operand, operand]
    exact operands entered
  case case7 =>
    intro c e d failed entered
    refine factor_congr (fun _ taken => ?_) fun _ _ taken => ?_
    · exact absurd (failed.symm.trans taken) (by simp)
    · exact absurd (failed.symm.trans taken) (by simp)
  case case8 =>
    intro c d opened polynomial entered
    refine factor_congr (fun e taken => ?_) fun first e taken other => ?_
    · obtain ⟨-, rfl⟩ := Prod.mk.inj (opened.symm.trans taken)
      exact polynomial (closed entered (.group opened))
    · obtain ⟨same, -⟩ := Prod.mk.inj (opened.symm.trans taken)
      exact absurd (Except.ok.inj same).symm other
  case case9 =>
    intro c first d begins other inner entered
    refine factor_congr (fun e taken => ?_) fun found e taken _ => ?_
    · obtain ⟨same, -⟩ := Prod.mk.inj (begins.symm.trans taken)
      exact absurd (Except.ok.inj same) other
    · obtain ⟨-, rfl⟩ := Prod.mk.inj (begins.symm.trans taken)
      exact inner (closed entered (.number begins other))
  case case10 =>
    intro c none unsigned entered
    rw [number, number, none]
    exact unsigned (closed entered (.unsigned none))
  case case11 =>
    intro c taken found signed entered
    rw [number, number, found]
    exact congrArg (Reader.since c _) (signed (closed entered (.signed found)))
  case case12 =>
    intro sign c taken found inside entered
    rw [numberAfter, numberAfter, ← (alike entered).functions, found]
    refine congrArg (Reader.since c _) ?_
    rw [inside (closed entered (.call found))]
  case case13 =>
    intro sign c noFunction taken found entered
    rw [numberAfter, numberAfter, ← (alike entered).functions, ← (alike entered).constants,
      noFunction, found]
  case case14 =>
    intro sign c noFunction noConstant group polynomial entered
    rw [numberAfter, numberAfter, ← (alike entered).functions, ← (alike entered).constants,
      noFunction, noConstant]
    simp only [group, and_self, dite_true]
    rw [polynomial (closed entered (.signedGroup noFunction noConstant group.2))]
  case case15 =>
    intro sign c noFunction noConstant noGroup entered
    rw [numberAfter, numberAfter, ← (alike entered).functions, ← (alike entered).constants,
      noFunction, noConstant]
    simp only [noGroup, dite_false]
  case case16 =>
    intro c none entered
    refine arguments_congr fun d opened _ => ?_
    exact absurd (none.symm.trans opened) (by simp)
  case case17 =>
    intro c d opened e shut entered
    refine arguments_congr fun d' opened' noClose => ?_
    obtain rfl := Option.some.inj (opened.symm.trans opened')
    exact absurd (noClose.symm.trans shut) (by simp)
  case case18 =>
    intro c d opened noClose list entered
    refine arguments_congr fun d' opened' _ => ?_
    obtain rfl := Option.some.inj (opened.symm.trans opened')
    exact list (closed entered (.list opened noClose))
  case case19 =>
    intro c ended entered
    rw [argumentList, argumentList, if_pos ended, if_pos ended]
  case case20 =>
    intro c more polynomial others entered
    have going : c.isOver = false := eq_false_of_ne_true more
    rw [argumentList_of_more more, argumentList_of_more more,
      ← polynomial (closed entered (.argument going))]
    refine Reader.andThen_congr fun x d le ends => ?_
    refine furtherArguments_congr x fun e comma => ?_
    exact others d le e comma (closed entered (.further going ends comma))

end Grammar

end Calculator
