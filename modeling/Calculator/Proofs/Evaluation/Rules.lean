import Calculator.Proofs.Evaluation.Follows

/-!
# The rules on unread text

One equation for each way that a rule can go on, by what the unread text begins
with. Positions enter only through what they leave unread.
-/
namespace Calculator.Grammar
open Unread

variable {v : Vocabulary} {c : Cursor}

/-! ## Single characters -/

theorem next_of_skip_cons {found : Char} {rest : List Char} (ahead : skip c.ahead = found :: rest) :
    ∃ passed, c.next true = (.ok found, ⟨found :: passed, rest⟩) :=
  ⟨c.skipIgnored.passed, by simp [Cursor.next, ahead]⟩

theorem next_of_skip_nil (ahead : skip c.ahead = []) :
    c.next true = (.error (.endOfInput c.skipIgnored.location), c.skipIgnored) := by
  simp [Cursor.next, ahead]

/-- The sign that comes next, and what is unread behind it. -/
def signAt? (text : List Char) : Option (String × Char × List Char) :=
  first? (fun _ => true) text [("+", '+'), ("-", '-')]

theorem signAt?_of_isSign {text rest : List Char} {sign : Char} (ahead : skip text = sign :: rest)
    (isSign : Character.isSign sign = true) :
    ∃ name, signAt? text = some (name, sign, skip rest) := by
  rcases (Character.isSign_iff sign).1 isSign with rfl | rfl
  · refine ⟨"+", ?_⟩
    simp [signAt?, first?, take?, accept?, ahead, Cursor.after?, Option.filter_some]
  · refine ⟨"-", ?_⟩
    simp [signAt?, first?, take?, accept?, ahead, Cursor.after?, Option.filter_some]

theorem signAt?_eq_none {text : List Char}
    (other : ∀ found rest, skip text = found :: rest → Character.isSign found = false) :
    signAt? text = none := by
  cases ahead : skip text with
  | nil => simp [signAt?, first?, take?, accept?, ahead, Cursor.after?]
  | cons found rest =>
    have unsigned : ¬ (found = '+' ∨ found = '-') := by
      simpa [← Character.isSign_iff] using other found rest ahead
    rw [not_or] at unsigned
    simp [signAt?, first?, take?, accept?, ahead, Cursor.after?, Ne.symm unsigned.1,
      Ne.symm unsigned.2]

theorem takeSign?_map (c : Cursor) :
    (takeSign? c).map (fun t => (t.name, t.declaration, t.cursor.ahead)) = signAt? c.ahead :=
  takeFirst?_map c (fun _ => true) (fun _ => true) (fun _ => rfl) _

/-! ## Chains -/

theorem chainRest_of_none {tier : Tier} (x : Float) (none : v.operatorAt? tier c.ahead = none) :
    chainRest v tier x c = .value x c (Nat.le_refl _) := by
  rw [Vocabulary.operatorAt?, ← takeFirst?_map c (fun _ => true) (fun _ => true) (fun _ => rfl),
    Option.map_eq_none_iff] at none
  rw [chainRest, Vocabulary.takeOperator?, none]

theorem chainRest_of_some {tier : Tier} (x : Float) {name : String} {op : Operator}
    {behind : List Char} (found : v.operatorAt? tier c.ahead = some (name, op, behind)) :
    ∃ d le, d.ahead = behind ∧
      chainRest v tier x c = Reader.since c le ((operand v tier d).andThen fun y e _ =>
        .ask c.place (.operator name op x y) fun result => chainRest v tier result e) := by
  rw [Vocabulary.operatorAt?, ← takeFirst?_map c (fun _ => true) (fun _ => true) (fun _ => rfl),
    Option.map_eq_some_iff] at found
  obtain ⟨taken, first, same⟩ := found
  cases same
  refine ⟨taken.cursor, Nat.le_of_lt taken.forward, rfl, ?_⟩
  rw [chainRest, Vocabulary.takeOperator?, first]

/-! ## Factors and numbers -/

theorem factor_of_open {opened : List Char} (ahead : skip c.ahead = '(' :: opened) :
    ∃ d le, d.ahead = opened ∧
      factor v c = Reader.since c le ((chain v .polynomial d).andThen fun value e _ =>
        .settled (closeGroup value e).1 (closeGroup value e).2 (closeGroup_ahead_le value e)) := by
  obtain ⟨passed, next⟩ := next_of_skip_cons ahead
  refine ⟨⟨'(' :: passed, opened⟩, ?_, rfl, ?_⟩
  · have forward := Cursor.next_ahead_le c true
    rwa [next] at forward
  · rw [factor]
    split
    · rename_i taken
      exact absurd (next.symm.trans taken) (by simp)
    · rename_i taken
      obtain ⟨found, same⟩ := Prod.mk.inj (next.symm.trans taken)
      cases found
      cases same
      rfl

theorem factor_of_other {found : Char} {rest : List Char} (ahead : skip c.ahead = found :: rest)
    (other : found ≠ '(') :
    ∃ d le, d.ahead = found :: rest ∧ factor v c = Reader.since c le (number v d) := by
  obtain ⟨passed, next⟩ := next_of_skip_cons ahead
  refine ⟨⟨passed, found :: rest⟩, Cursor.retreat_ahead_le next, rfl, ?_⟩
  rw [factor]
  split
  · rename_i taken
    exact absurd (next.symm.trans taken) (by simp)
  · rename_i taken
    obtain ⟨same, moved⟩ := Prod.mk.inj (next.symm.trans taken)
    cases same
    cases moved
    rw [if_neg other]
    rfl

theorem factor_of_end (ahead : skip c.ahead = []) : Reader.Barren (factor v c) := by
  have next := next_of_skip_nil ahead
  rw [factor]
  split
  · exact .failure
  · rename_i taken
    exact absurd (next.symm.trans taken) (by simp)

theorem number_of_sign {sign : Char} {rest : List Char} (ahead : skip c.ahead = sign :: rest)
    (isSign : Character.isSign sign = true) :
    ∃ d le, d.ahead = skip rest ∧
      number v c = Reader.since c le (numberAfter v (some sign) d) := by
  obtain ⟨name, found⟩ := signAt?_of_isSign ahead isSign
  rw [← takeSign?_map, Option.map_eq_some_iff] at found
  obtain ⟨taken, first, same⟩ := found
  simp only [Prod.mk.injEq] at same
  obtain ⟨-, rfl, unread⟩ := same
  refine ⟨taken.cursor, Nat.le_of_lt taken.forward, unread, ?_⟩
  rw [number, first]

theorem number_of_other
    (other : ∀ found rest, skip c.ahead = found :: rest → Character.isSign found = false) :
    number v c = numberAfter v none c := by
  have none := signAt?_eq_none other
  rw [← takeSign?_map, Option.map_eq_none_iff] at none
  rw [number, none]

/-! ## Behind the sign of a number -/

variable (sign : Option Char)

theorem takeFunction?_map (c : Cursor) :
    (v.takeFunction? c).map (fun t => (t.name, t.declaration, t.cursor.ahead)) =
      v.functionAt? c.ahead :=
  takeFirst?_map c _ _ (fun d => lookahead_singleton d "(") _

theorem takeConstant?_map (c : Cursor) :
    (v.takeConstant? c).map (fun t => (t.name, t.declaration, t.cursor.ahead)) =
      v.constantAt? c.ahead :=
  takeFirst?_map c (fun _ => true) (fun _ => true) (fun _ => rfl) _

theorem numberAfter_of_function {name : String} {f : Function} {behind : List Char}
    (found : v.functionAt? c.ahead = some (name, f, behind)) :
    ∃ d le, d.ahead = behind ∧
      numberAfter v sign c = Reader.since c le ((arguments v d).andThen fun values e _ =>
        .ask c.place (.function name f values) fun result =>
          .settled ((Numeral.Draft.ofSign sign).pushValue result).read e (Nat.le_refl _)) := by
  rw [← takeFunction?_map, Option.map_eq_some_iff] at found
  obtain ⟨taken, first, same⟩ := found
  cases same
  refine ⟨taken.cursor, Nat.le_of_lt taken.forward, rfl, ?_⟩
  rw [numberAfter, first]

theorem numberAfter_of_constant {name : String} {value : Float} {behind : List Char}
    (noFunction : v.functionAt? c.ahead = none)
    (found : v.constantAt? c.ahead = some (name, value, behind)) :
    ∃ d le, d.ahead = behind ∧
      numberAfter v sign c =
        .settled ((Numeral.Draft.ofSign sign).pushValue value).read d le := by
  rw [← takeFunction?_map, Option.map_eq_none_iff] at noFunction
  rw [← takeConstant?_map, Option.map_eq_some_iff] at found
  obtain ⟨taken, first, same⟩ := found
  cases same
  refine ⟨taken.cursor, Nat.le_of_lt taken.forward, rfl, ?_⟩
  rw [numberAfter, noFunction, first]

theorem numberAfter_of_group {s : Char} (noFunction : v.functionAt? c.ahead = none)
    (noConstant : v.constantAt? c.ahead = none) (group : Unread.startsGroup c.ahead = true) :
    numberAfter v (some s) c = (chain v .polynomial c).andThen fun value e _ =>
      .settled ((Numeral.Draft.ofSign (some s)).applySign value).read e (Nat.le_refl _) := by
  rw [← takeFunction?_map, Option.map_eq_none_iff] at noFunction
  rw [← takeConstant?_map, Option.map_eq_none_iff] at noConstant
  rw [← startsGroup_ahead] at group
  rw [numberAfter, noFunction, noConstant]
  simp only [Option.isSome_some, group, and_self, dite_true]

theorem numberAfter_of_digits {sign : Option Char} (noFunction : v.functionAt? c.ahead = none)
    (noConstant : v.constantAt? c.ahead = none)
    (noGroup : sign.isSome = true → Unread.startsGroup c.ahead = false) :
    numberAfter v sign c = .done (digits (Numeral.Draft.ofSign sign) c) := by
  rw [← takeFunction?_map, Option.map_eq_none_iff] at noFunction
  rw [← takeConstant?_map, Option.map_eq_none_iff] at noConstant
  have no : ¬ (sign.isSome = true ∧ startsGroup c = true) := by
    rintro ⟨signed, group⟩
    rw [startsGroup_ahead, noGroup signed] at group
    exact Bool.false_ne_true group
  rw [numberAfter, noFunction, noConstant]
  simp only [no, dite_false]

/-! ## Closing parentheses and separators -/

theorem isOver_of_skip_nil (ahead : skip c.ahead = []) : c.skipIgnored.isOver = true := by
  rw [Cursor.isOver, skipIgnored_ahead, ahead, List.isEmpty_nil]

/-- What closes or separates is looked for past the ignored characters. -/
theorem next_past_ignored {found : Char} {rest : List Char} (ahead : skip c.ahead = found :: rest) :
    c.skipIgnored.isOver = false ∧
      ∃ passed, c.skipIgnored.next true = (.ok found, ⟨found :: passed, rest⟩) := by
  constructor
  · rw [Cursor.isOver, skipIgnored_ahead, ahead, List.isEmpty_cons]
  · exact next_of_skip_cons ((skip_skip _).trans ahead)

theorem closeGroup_of_close (x : Float) {behind : List Char} (ahead : skip c.ahead = ')' :: behind) :
    (closeGroup x c).1 = .ok x ∧ (closeGroup x c).2.ahead = skip behind := by
  obtain ⟨more, passed, next⟩ := next_past_ignored ahead
  simp [closeGroup, more, next]

theorem closeGroup_of_other (x : Float) (other : ∀ behind, skip c.ahead ≠ ')' :: behind) :
    ∃ e, (closeGroup x c).1 = .error e := by
  cases ahead : skip c.ahead with
  | nil => simp [closeGroup, isOver_of_skip_nil ahead]
  | cons found rest =>
    obtain ⟨more, passed, next⟩ := next_past_ignored ahead
    have unclosed : found ≠ ')' := fun same => other rest (same ▸ ahead)
    simp [closeGroup, more, next, unclosed]

theorem separator_of_comma {behind : List Char} (ahead : skip c.ahead = ',' :: behind) :
    ∃ d, d.ahead = behind ∧ separator c = (.ok true, d) := by
  obtain ⟨more, passed, next⟩ := next_past_ignored ahead
  exact ⟨⟨',' :: passed, behind⟩, rfl, by simp [separator, more, next]⟩

theorem separator_of_close {behind : List Char} (ahead : skip c.ahead = ')' :: behind) :
    ∃ d, d.ahead = skip behind ∧ separator c = (.ok false, d) := by
  obtain ⟨more, passed, next⟩ := next_past_ignored ahead
  exact ⟨Cursor.skipIgnored ⟨')' :: passed, behind⟩, rfl, by simp [separator, more, next]⟩

theorem separator_of_other (noComma : ∀ behind, skip c.ahead ≠ ',' :: behind)
    (noClose : ∀ behind, skip c.ahead ≠ ')' :: behind) :
    ∃ e d, separator c = (.error e, d) := by
  cases ahead : skip c.ahead with
  | nil => exact ⟨.unclosedArguments, c.skipIgnored, by simp [separator, isOver_of_skip_nil ahead]⟩
  | cons found rest =>
    obtain ⟨more, passed, next⟩ := next_past_ignored ahead
    have comma : found ≠ ',' := fun same => noComma rest (same ▸ ahead)
    have close : found ≠ ')' := fun same => noClose rest (same ▸ ahead)
    exact ⟨.missingSeparator found, ⟨found :: passed, rest⟩,
      by simp [separator, more, next, comma, close]⟩

/-! ## Arguments -/

theorem arguments_of_empty {opened behind : List Char} (ahead : skip c.ahead = '(' :: opened)
    (closed : skip opened = ')' :: behind) :
    ∃ d le, d.ahead = skip behind ∧ arguments v c = .value [] d le := by
  have opens : accept? "(" c.ahead = some (skip opened) :=
    accept?_eq_some_iff.2 ⟨opened, ahead, rfl⟩
  rw [← accept?_ahead, Option.map_eq_some_iff] at opens
  obtain ⟨d, taken, unread⟩ := opens
  have closes : accept? ")" d.ahead = some (skip behind) :=
    accept?_eq_some_iff.2 ⟨behind, by rw [unread, skip_skip]; exact closed, rfl⟩
  rw [← accept?_ahead, Option.map_eq_some_iff] at closes
  obtain ⟨e, last, left⟩ := closes
  refine ⟨e, Nat.le_trans (Cursor.accept?_ahead_le last) (Cursor.accept?_ahead_le taken), left, ?_⟩
  rw [arguments]
  split
  · rename_i none
    exact absurd (none.symm.trans taken) (by simp)
  · rename_i d' taken'
    obtain rfl := Option.some.inj (taken.symm.trans taken')
    split
    · rename_i e' last'
      obtain rfl := Option.some.inj (last.symm.trans last')
      rfl
    · rename_i none
      exact absurd (none.symm.trans last) (by simp)

theorem arguments_of_list {opened : List Char} (ahead : skip c.ahead = '(' :: opened)
    (more : ∀ behind, skip opened ≠ ')' :: behind) :
    ∃ d le, d.ahead = skip opened ∧
      arguments v c = Reader.since c le (argumentList v d) := by
  have opens : accept? "(" c.ahead = some (skip opened) :=
    accept?_eq_some_iff.2 ⟨opened, ahead, rfl⟩
  rw [← accept?_ahead, Option.map_eq_some_iff] at opens
  obtain ⟨d, taken, unread⟩ := opens
  have noClose : accept? ")" d.ahead = none := by
    rw [accept?_eq_none_iff, unread, skip_skip]
    exact more
  rw [← accept?_ahead, Option.map_eq_none_iff] at noClose
  refine ⟨d, Cursor.accept?_ahead_le taken, unread, ?_⟩
  rw [arguments]
  split
  · rename_i none
    exact absurd (none.symm.trans taken) (by simp)
  · rename_i d' taken'
    obtain rfl := Option.some.inj (taken.symm.trans taken')
    split
    · rename_i e' last
      exact absurd (noClose.symm.trans last) (by simp)
    · rfl

theorem failed_ahead_le {c d : Cursor} {e : EvaluationError}
    (separated : separator c = (.error e, d)) : d.ahead.length ≤ c.ahead.length := by
  have forward := separator_ahead_le c
  rwa [separated] at forward

theorem closed_ahead_le {c d : Cursor} (separated : separator c = (.ok false, d)) :
    d.ahead.length ≤ c.ahead.length :=
  Nat.le_of_lt (separator_ahead_lt separated)

theorem continued_ahead_le {c d : Cursor} (separated : separator c = (.ok true, d)) :
    d.ahead.length ≤ c.ahead.length :=
  Nat.le_of_lt (separator_ahead_lt separated)

theorem kept_ahead_le (c : Cursor) : c.ahead.length ≤ c.ahead.length := Nat.le_refl _

/-- What follows an argument: the others and the closing parenthesis. -/
def furtherArguments (v : Vocabulary) (first : Float) (c : Cursor) : Reader (List Float) c :=
  match separated : separator c with
  | (.error e, d) => .failure e d (failed_ahead_le separated)
  | (.ok false, d) => .value [first] d (closed_ahead_le separated)
  | (.ok true, d) =>
    let others : Reader (List Float) d :=
      (argumentList v d).andThen fun rest e _ => .value (first :: rest) e (kept_ahead_le e)
    others.since c (continued_ahead_le separated)

theorem argumentList_of_nonblank (nonblank : skip c.ahead ≠ []) :
    argumentList v c = (chain v .polynomial c).andThen fun x d _ => furtherArguments v x d := by
  have more : ¬ c.isOver = true := by
    intro ended
    rw [Cursor.isOver, List.isEmpty_iff] at ended
    rw [ended] at nonblank
    exact nonblank rfl
  rw [argumentList, if_neg more]
  rfl

theorem furtherArguments_of_close (x : Float) {behind : List Char}
    (ahead : skip c.ahead = ')' :: behind) :
    ∃ d le, d.ahead = skip behind ∧ furtherArguments v x c = .value [x] d le := by
  obtain ⟨d, unread, closed⟩ := separator_of_close ahead
  refine ⟨d, Nat.le_of_lt (separator_ahead_lt closed), unread, ?_⟩
  rw [furtherArguments]
  split
  · rename_i other
    exact absurd (closed.symm.trans other) (by simp)
  · rename_i other
    obtain ⟨-, same⟩ := Prod.mk.inj (closed.symm.trans other)
    cases same
    rfl
  · rename_i other
    exact absurd (closed.symm.trans other) (by simp)

theorem furtherArguments_of_comma (x : Float) {behind : List Char}
    (ahead : skip c.ahead = ',' :: behind) :
    ∃ d le, d.ahead = behind ∧
      furtherArguments v x c = Reader.since c le ((argumentList v d).andThen fun rest e _ =>
        .value (x :: rest) e (Nat.le_refl _)) := by
  obtain ⟨d, unread, comma⟩ := separator_of_comma ahead
  refine ⟨d, Nat.le_of_lt (separator_ahead_lt comma), unread, ?_⟩
  rw [furtherArguments]
  split
  · rename_i other
    exact absurd (comma.symm.trans other) (by simp)
  · rename_i other
    exact absurd (comma.symm.trans other) (by simp)
  · rename_i other
    obtain ⟨-, same⟩ := Prod.mk.inj (comma.symm.trans other)
    cases same
    rfl

theorem furtherArguments_of_other (x : Float) (noComma : ∀ behind, skip c.ahead ≠ ',' :: behind)
    (noClose : ∀ behind, skip c.ahead ≠ ')' :: behind) :
    Reader.Barren (furtherArguments v x c) := by
  obtain ⟨e, d, missing⟩ := separator_of_other noComma noClose
  rw [furtherArguments]
  split
  · exact .failure
  · rename_i other
    exact absurd (missing.symm.trans other) (by simp)
  · rename_i other
    exact absurd (missing.symm.trans other) (by simp)

end Calculator.Grammar
