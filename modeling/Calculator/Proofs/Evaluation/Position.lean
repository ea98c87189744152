import Calculator.Proofs.Numeral.Digits
import Calculator.Proofs.Numeral.PendingSign

/-!
# Where the rules leave a position

Every position that a rule reaches lies in the text it was given, at or behind the
position it began at: where it ends with a value, where it fails, and where it waits
for a callable. A rule fails for a reason that lies in the text, or with the failure of
the call that it waited for last; an evaluation as a whole has failures of its own.
-/
namespace Calculator

/-- Whether a failure is one of reading, and not of an evaluation as a whole. -/
def EvaluationError.isOfReading (e : EvaluationError) : Bool :=
  e.kind ≠ .reentrant ∧ e.kind ≠ .notANumber

theorem EvaluationError.isOfReading_iff (e : EvaluationError) :
    e.isOfReading = true ↔ e.kind ≠ .reentrant ∧ e.kind ≠ .notANumber := by
  simp [isOfReading]

/-- A failure for a reason that lies in the text. Nothing is behind it. -/
structure EvaluationError.OfText (e : EvaluationError) : Prop where
  kind : e.kind = .outOfRange ∨ e.kind = .malformed ∨ e.kind = .numeral
  ends : e.source? = none

namespace EvaluationError

theorem OfText.isOfReading {e : EvaluationError} (ofText : e.OfText) : e.isOfReading = true := by
  rw [isOfReading_iff]
  rcases ofText.kind with kind | kind | kind
  · simp [kind]
  · simp [kind]
  · simp [kind]

theorem OfText.of_malformed {e : EvaluationError} (kind : e.kind = .malformed)
    (ends : e.source? = none) : e.OfText := ⟨.inr (.inl kind), ends⟩

theorem OfText.malformedNumeral (text : String) : (EvaluationError.malformedNumeral text).OfText :=
  ⟨.inr (.inr rfl), rfl⟩

theorem OfText.secondPoint (text : String) : (EvaluationError.secondPoint text).OfText := ⟨.inr (.inr rfl), rfl⟩

end EvaluationError

/-- A position of the same text that is not before another one. -/
structure Cursor.Within (start c : Cursor) : Prop where
  text : c.text = start.text
  forward : c.ahead.length ≤ start.ahead.length

namespace Cursor

theorem Within.refl (c : Cursor) : Within c c := ⟨rfl, le_rfl⟩

theorem Within.trans {start middle c : Cursor} (first : Within start middle)
    (second : Within middle c) : Within start c :=
  ⟨second.text.trans first.text, second.forward.trans first.forward⟩

theorem within_skipIgnored (c : Cursor) : Within c c.skipIgnored :=
  ⟨skipIgnored_text c, skipIgnored_ahead_le c⟩

theorem within_of_accept? {c d : Cursor} {literal : String} (h : c.accept? literal = some d) :
    Within c d :=
  ⟨accept?_text h, accept?_ahead_le h⟩

theorem within_of_next {c d : Cursor} {past : Bool} {result : Except EvaluationError Char}
    (h : c.next past = (result, d)) : Within c d := by
  have text := next_text c past
  have forward := next_ahead_le c past
  rw [h] at text forward
  exact ⟨text, forward⟩

end Cursor

theorem ofText_of_next {c d : Cursor} {past : Bool} {e : EvaluationError}
    (h : c.next past = (.error e, d)) : e.OfText := by
  unfold Cursor.next at h
  dsimp only at h
  split at h
  · cases h
    exact ⟨.inl rfl, rfl⟩
  · cases h

theorem Call.isOfReading_failure (request : Call) (e : CallError) :
    (request.failure e).isOfReading = true := by
  cases request with
  | operator name op x y => exact rfl
  | function name f xs => exact rfl

namespace Numeral.Draft

variable {sign : Option Char} {e : EvaluationError}

/-- A number is refused behind a pending sign only as the text of both. -/
theorem ofText_of_pushValue (optional : IsOptionalSign sign) {x : Float}
    (failed : ((ofSign sign).pushValue x).read = .error e) : e.OfText := by
  cases sign with
  | none => exact nomatch (pushValue_read x).symm.trans failed
  | some sign =>
    have isSign := optional sign rfl
    cases negative : Number.isNegative x with
    | false => exact nomatch (read_of_nonnegative isSign negative).symm.trans failed
    | true =>
      have number : x.isNaN = false := by
        rw [← Bool.not_eq_true]
        intro none
        exact nomatch (isNegative_of_isNaN none).symm.trans negative
      cases (read_of_negative isSign number negative).symm.trans failed
      exact .malformedNumeral _

/-- An applied sign leaves a number. -/
theorem applySign_ne_error (optional : IsOptionalSign sign) (x : Float) :
    ((ofSign sign).applySign x).read ≠ .error e := by
  cases sign with
  | none => exact fun failed => nomatch (read_write x).symm.trans failed
  | some sign => exact fun failed => nomatch (applySign_read (optional sign rfl) x).symm.trans failed

end Numeral.Draft

theorem takeFirst?_within {α : Type} {start : Cursor} {fits : Cursor → Bool}
    {entries : List (String × α)} {taken : Taken α start}
    (found : takeFirst? start fits entries = some taken) : start.Within taken.cursor := by
  induction entries with
  | nil => exact nomatch found
  | cons entry rest ih =>
    obtain ⟨name, declaration⟩ := entry
    rw [takeFirst?] at found
    split at found
    · split at found
      · exact ih found
      · rename_i cursor accepted
        split at found
        · cases found
          exact Cursor.within_of_accept? accepted
        · exact ih found
    · exact ih found

namespace Reader

variable {α β : Type} {start : Cursor}

/-- Every end of the reading and every call on the way lies within its text, at or
    behind its start. It fails for a reason in the text, or with the call it waited for. -/
inductive Keeps : Reader α start → Prop where
  | done {reading : Reading α start} (within : start.Within reading.cursor)
      (failing : ∀ e, reading.result = .error e → e.OfText) : Keeps (.done reading)
  | call {request : Call} {site : Site} {resume : CallResult → Reader α start}
      (within : start.Within site.cursor) (answered : ∀ x, Keeps (resume (.ok x)))
      (refused : ∀ cause, ∃ (c : Cursor) (within : start.Within c),
        resume (.error cause) = failure (request.failure cause) c within.forward) :
      Keeps (.call request site resume)

theorem Keeps.value {x : α} {c : Cursor} (within : start.Within c) :
    Keeps (value x c within.forward : Reader α start) := .done within nofun

theorem Keeps.failure {e : EvaluationError} {c : Cursor} (within : start.Within c)
    (failing : e.OfText) : Keeps (failure e c within.forward : Reader α start) :=
  .done within fun _ same => Except.error.inj same ▸ failing

theorem Keeps.since {p : Reader α start} (keeps : Keeps p) {earlier : Cursor}
    (within : earlier.Within start) (le : start.ahead.length ≤ earlier.ahead.length) :
    Keeps (p.since earlier le) := by
  induction keeps with
  | done inner failing => exact .done (within.trans inner) failing
  | call inner _ refused ih =>
    refine .call (within.trans inner) ih fun cause => ?_
    obtain ⟨c, inner, fails⟩ := refused cause
    exact ⟨c, within.trans inner, congrArg (Reader.since earlier le) fails⟩

theorem Keeps.andThen {p : Reader α start}
    {next : (x : α) → (c : Cursor) → c.ahead.length ≤ start.ahead.length → Reader β c}
    (keeps : Keeps p) (continued : ∀ x c le, Keeps (next x c le)) : Keeps (p.andThen next) := by
  induction keeps with
  | @done reading within failing =>
    obtain ⟨result, c, forward⟩ := reading
    cases result with
    | error e => exact .done within fun f same => failing f (by cases same; rfl)
    | ok x => exact (continued x c forward).since within forward
  | call within _ refused ih =>
    refine .call within ih fun cause => ?_
    obtain ⟨c, inner, fails⟩ := refused cause
    exact ⟨c, inner, congrArg (Reader.andThen · next) fails⟩

theorem Keeps.ask {place : Nat} {request : Call} {next : Float → Reader α start}
    (continued : ∀ x, Keeps (next x)) : Keeps (ask place request next) :=
  .call (.refl start) continued fun _ => ⟨start, .refl start, rfl⟩

/-- A run ends within the text, at or behind the start. -/
theorem Keeps.run {p : Reader α start} (keeps : Keeps p) (answer : Call → Site → CallResult) :
    start.Within (p.run (m := Id) answer).cursor := by
  induction keeps with
  | done within _ => exact within
  | @call request site resume _ _ refused ih =>
    change start.Within ((resume (answer request site)).run (m := Id) answer).cursor
    cases answer request site with
    | ok x => exact ih x
    | error cause =>
      obtain ⟨c, within, fails⟩ := refused cause
      rw [fails]
      exact within

end Reader

namespace Grammar

theorem collectDigits_text (draft : Numeral.Draft) (passed ahead : List Char) :
    (collectDigits draft passed ahead).2.text = (Cursor.mk passed ahead).text := by
  induction ahead generalizing draft passed with
  | nil => rfl
  | cons c rest ih =>
    have moved : (Cursor.mk (c :: passed) rest).text = (Cursor.mk passed (c :: rest)).text := by
      simp [Cursor.text]
    unfold collectDigits
    split
    · rw [ih, moved]
    · split
      · cases draft.pushPoint with
        | error e => exact moved
        | ok pointed => exact (ih pointed (c :: passed)).trans moved
      · rfl

theorem closeGroup_within (x : Float) (start : Cursor) : start.Within (closeGroup x start).2 := by
  refine ⟨?_, closeGroup_ahead_le x start⟩
  have taken := Cursor.next_text start.skipIgnored true
  rw [Cursor.skipIgnored_text] at taken
  unfold closeGroup
  dsimp only
  split
  · exact Cursor.skipIgnored_text start
  · split
    · rename_i e d h
      rwa [h] at taken
    · rename_i found d h
      rw [h] at taken
      split
      · exact (Cursor.skipIgnored_text d).trans taken
      · exact taken

theorem ofText_of_closeGroup {x : Float} {start : Cursor} {e : EvaluationError}
    (failed : (closeGroup x start).1 = .error e) : e.OfText := by
  unfold closeGroup at failed
  dsimp only at failed
  split at failed
  · cases failed
    exact .of_malformed rfl rfl
  · split at failed
    · rename_i taken
      cases failed
      exact ofText_of_next taken
    · split at failed
      · cases failed
      · cases failed
        exact .of_malformed rfl rfl

theorem separator_within (start : Cursor) : start.Within (separator start).2 := by
  refine ⟨?_, separator_ahead_le start⟩
  have taken := Cursor.next_text start.skipIgnored true
  rw [Cursor.skipIgnored_text] at taken
  unfold separator
  dsimp only
  split
  · exact Cursor.skipIgnored_text start
  · split
    · rename_i e d h
      rwa [h] at taken
    · rename_i found d h
      rw [h] at taken
      split
      · exact taken
      · split
        · exact (Cursor.skipIgnored_text d).trans taken
        · exact taken

theorem ofText_of_separator {start : Cursor} {e : EvaluationError}
    (failed : (separator start).1 = .error e) : e.OfText := by
  unfold separator at failed
  dsimp only at failed
  split at failed
  · cases failed
    exact .of_malformed rfl rfl
  · split at failed
    · rename_i taken
      cases failed
      exact ofText_of_next taken
    · split at failed
      · cases failed
      · split at failed
        · cases failed
        · cases failed
          exact .of_malformed rfl rfl

theorem isSign_of_takeSign? {start : Cursor} {taken : Taken Char start}
    (found : takeSign? start = some taken) : IsOptionalSign (some taken.declaration) := by
  have named := takeSign?_map start
  rw [found] at named
  obtain ⟨listed, -⟩ := Unread.of_first?_eq_some named.symm
  rintro c ⟨⟩
  rw [Character.isSign_iff]
  simp only [List.mem_cons, Prod.mk.injEq, List.not_mem_nil, or_false] at listed
  exact listed.imp And.right And.right

section

variable {sign : Option Char}

/-- Digits that come to no number are refused as text. -/
theorem ofText_of_digits (optional : IsOptionalSign sign) {c : Cursor} {e : EvaluationError}
    (failed : (digits (.ofSign sign) c).result = .error e) : e.OfText := by
  rcases digits_exhaustive optional c.ahead with ⟨ds, behind, plain, ends, ahead⟩ | refused
  · obtain ⟨x, read⟩ := Numeral.exists_read_of_plain optional plain
    exact nomatch ((digits_of_plain plain ends ahead sign).1.trans read).symm.trans failed
  · obtain ⟨text, malformed | second⟩ := refused c rfl
    · cases malformed.symm.trans failed
      exact .malformedNumeral text
    · cases second.symm.trans failed
      exact .secondPoint text

theorem digits_keeps (optional : IsOptionalSign sign) (start : Cursor) :
    Reader.Keeps (.done (digits (.ofSign sign) start)) :=
  .done ⟨collectDigits_text _ _ _, collectDigits_ahead_le _ _ _⟩
    fun _ failed => ofText_of_digits optional failed

theorem pushValue_keeps (optional : IsOptionalSign sign) (x : Float) {start c : Cursor}
    (within : start.Within c) :
    Reader.Keeps (Reader.settled ((Numeral.Draft.ofSign sign).pushValue x).read c within.forward :
      Reader Float start) :=
  .done within fun _ failed => Numeral.Draft.ofText_of_pushValue optional failed

theorem applySign_keeps (optional : IsOptionalSign sign) (x : Float) {start c : Cursor}
    (within : start.Within c) :
    Reader.Keeps (Reader.settled ((Numeral.Draft.ofSign sign).applySign x).read c within.forward :
      Reader Float start) :=
  .done within fun _ failed => absurd failed (Numeral.Draft.applySign_ne_error optional x)

end

/-! ## One rule whose parts keep the text -/

section

variable {v : Vocabulary} {start : Cursor}

theorem factor_keeps
    (group : ∀ c, start.next true = (.ok '(', c) → Reader.Keeps (chain v .polynomial c))
    (other : ∀ first c, start.next true = (.ok first, c) → first ≠ '(' →
      Reader.Keeps (number v c.retreat)) : Reader.Keeps (factor v start) := by
  rw [factor]
  split
  · rename_i e c failed
    exact .failure (Cursor.within_of_next failed) (ofText_of_next failed)
  · rename_i first c taken
    have moved := Cursor.within_of_next taken
    by_cases opens : first = '('
    · subst opens
      rw [if_pos rfl]
      refine Reader.Keeps.since ?_ moved _
      exact (group c taken).andThen fun x d _ =>
        .done (closeGroup_within x d) fun _ failed => ofText_of_closeGroup failed
    · rw [if_neg opens]
      refine (other first c taken opens).since ⟨?_, Cursor.retreat_ahead_le taken⟩ _
      rw [Cursor.retreat_text, moved.text]

theorem arguments_keeps
    (list : ∀ c, start.accept? "(" = some c → c.accept? ")" = none →
      Reader.Keeps (argumentList v c)) : Reader.Keeps (arguments v start) := by
  rw [arguments]
  split
  · exact .failure (.refl start) (.of_malformed rfl rfl)
  · rename_i c opened
    have inside := Cursor.within_of_accept? opened
    split
    · rename_i d closed
      exact .value (inside.trans (Cursor.within_of_accept? closed))
    · rename_i noClose
      exact (list c opened noClose).since inside _

theorem argumentList_keeps (more : ¬ start.isOver = true)
    (polynomial : Reader.Keeps (chain v .polynomial start))
    (others : ∀ c, c.ahead.length ≤ start.ahead.length → ∀ d, separator c = (.ok true, d) →
      Reader.Keeps (argumentList v d)) : Reader.Keeps (argumentList v start) := by
  rw [argumentList, if_neg more]
  refine polynomial.andThen fun x c le => ?_
  have behind := separator_within c
  split
  · rename_i e d separated
    rw [separated] at behind
    exact .failure behind (ofText_of_separator (congrArg Prod.fst separated))
  · rename_i d separated
    rw [separated] at behind
    exact .value behind
  · rename_i d separated
    rw [separated] at behind
    refine Reader.Keeps.since ?_ behind _
    exact (others c le d separated).andThen fun xs e _ => .value (.refl e)

end

/-- Every rule keeps the text and moves forward only. -/
theorem rules_keep (v : Vocabulary) :
    (∀ tier c, Reader.Keeps (chain v tier c)) ∧ (∀ tier x c, Reader.Keeps (chainRest v tier x c)) ∧
      (∀ tier c, Reader.Keeps (operand v tier c)) ∧ (∀ c, Reader.Keeps (factor v c)) ∧
      (∀ c, Reader.Keeps (number v c)) ∧
      (∀ sign c, IsOptionalSign sign → Reader.Keeps (numberAfter v sign c)) ∧
      (∀ c, Reader.Keeps (arguments v c)) ∧ ∀ c, Reader.Keeps (argumentList v c) := by
  apply chain.mutual_induct v
  case case1 =>
    intro tier start first rest
    rw [chain]
    exact first.andThen rest
  case case2 =>
    intro tier x start none
    rw [chainRest, none]
    exact .value (.refl start)
  case case3 =>
    intro tier x start taken found right rest
    rw [chainRest, found]
    refine Reader.Keeps.since ?_ (takeFirst?_within found) _
    exact right.andThen fun y c le => .ask fun z => rest c le z
  case case4 | case5 | case6 =>
    intro start operands
    rw [operand]
    exact operands
  case case7 =>
    intro start e c failed
    refine factor_keeps (fun d taken => ?_) fun first d taken => ?_
    · exact absurd (failed.symm.trans taken) (by simp)
    · exact absurd (failed.symm.trans taken) (by simp)
  case case8 =>
    intro start c opened polynomial
    refine factor_keeps (fun d taken => ?_) fun first d taken other => ?_
    · obtain ⟨-, rfl⟩ := Prod.mk.inj (opened.symm.trans taken)
      exact polynomial
    · obtain ⟨same, -⟩ := Prod.mk.inj (opened.symm.trans taken)
      exact absurd (Except.ok.inj same).symm other
  case case9 =>
    intro start first c begins other inner
    refine factor_keeps (fun d taken => ?_) fun found d taken _ => ?_
    · obtain ⟨same, -⟩ := Prod.mk.inj (begins.symm.trans taken)
      exact absurd (Except.ok.inj same) other
    · obtain ⟨-, rfl⟩ := Prod.mk.inj (begins.symm.trans taken)
      exact inner
  case case10 =>
    intro start none unsigned
    rw [number, none]
    exact unsigned Numeral.isOptionalSign_none
  case case11 =>
    intro start taken found signed
    rw [number, found]
    exact (signed (isSign_of_takeSign? found)).since (takeFirst?_within found) _
  case case12 =>
    intro sign start taken found arguments optional
    rw [numberAfter, found]
    refine Reader.Keeps.since ?_ (takeFirst?_within found) _
    exact arguments.andThen fun xs c _ => .ask fun x => pushValue_keeps optional x (.refl c)
  case case13 =>
    intro sign start none taken found optional
    rw [numberAfter, none, found]
    exact pushValue_keeps optional _ (takeFirst?_within found)
  case case14 =>
    intro sign start noFunction noConstant group polynomial optional
    rw [numberAfter, noFunction, noConstant]
    simp only [group, and_self, dite_true]
    exact polynomial.andThen fun x c _ => applySign_keeps optional x (.refl c)
  case case15 =>
    intro sign start noFunction noConstant noGroup optional
    rw [numberAfter, noFunction, noConstant]
    simp only [noGroup, dite_false]
    exact digits_keeps optional start
  case case16 =>
    intro start none
    refine arguments_keeps fun c opened _ => ?_
    exact absurd (none.symm.trans opened) (by simp)
  case case17 =>
    intro start c opened d closed
    refine arguments_keeps fun c' opened' noClose => ?_
    obtain rfl := Option.some.inj (opened.symm.trans opened')
    exact absurd (noClose.symm.trans closed) (by simp)
  case case18 =>
    intro start c opened none list
    refine arguments_keeps fun c' opened' _ => ?_
    obtain rfl := Option.some.inj (opened.symm.trans opened')
    exact list
  case case19 =>
    intro start ended
    rw [argumentList, if_pos ended]
    exact .failure (.refl start) (.of_malformed rfl rfl)
  case case20 =>
    intro start more polynomial others
    exact argumentList_keeps more polynomial others

/-- An expression keeps the text and moves forward only. -/
theorem expression_keeps (v : Vocabulary) (text : String) :
    Reader.Keeps (expression v (.ofString text)) := by
  have fresh : (Cursor.ofString text).location = 0 := rfl
  rw [expression, if_neg (not_not_intro fresh)]
  split
  · exact .failure (.refl _) (.of_malformed rfl rfl)
  · refine ((rules_keep v).1 .polynomial _).andThen fun x c _ => ?_
    dsimp only
    split
    · exact .value (Cursor.within_skipIgnored c)
    · exact .failure (Cursor.within_skipIgnored c) (.of_malformed rfl rfl)

end Grammar

end Calculator
