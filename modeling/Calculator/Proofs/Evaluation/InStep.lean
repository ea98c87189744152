import Calculator.Proofs.Evaluation.Branches
import Calculator.Proofs.Evaluation.Walk

/-!
# Walks in step with readings

A rule on a track and the rule at its position make the same calls at the same places and
come to the same result, whatever is answered, and the track is left at the position that the
reading leaves. Only a number that begins with a parenthesis is read otherwise, and no factor
enters one.
-/
namespace Calculator

namespace Track

variable {t : Track}

/-! ## Digits, parentheses and commas -/

/-- A character that is taken without passing others is the first that is unread. -/
theorem cursor_of_next {c : Char} (taken : (t.next false).1 = .ok c) :
    ∃ rest, t.unread = c :: rest ∧ (t.next false).2.cursor = ⟨c :: t.cursor.passed, rest⟩ := by
  cases ahead : t.unread with
  | nil =>
    rw [next_of_nil _ ahead] at taken
    cases taken
  | cons first rest =>
    rw [next_of_cons _ ahead] at taken ⊢
    cases taken
    refine ⟨rest, rfl, cursor_eq (onward_step ahead).characters ?_ (unread_step ahead).symm⟩
    rw [Cursor.text, Cursor.text, cursor_ahead, ahead, List.reverse_cons, List.append_assoc]
    rfl

theorem next_of_more (more : ¬ t.isOver = true) : ∃ c, (t.next false).1 = .ok c := by
  rw [isOver_iff] at more
  obtain ⟨c, rest, ahead⟩ := List.exists_cons_of_ne_nil more
  rw [next_of_cons _ ahead]
  exact ⟨c, rfl⟩

/-- Digits are collected from what is unread. -/
theorem collectDigits_eq (inside : t.location ≤ t.size) (draft : Numeral.Draft) :
    Grammar.collectDigits draft t.cursor.passed t.unread =
      ((t.collectDigits draft).1, (t.collectDigits draft).2.cursor) := by
  have onward (t : Track) := onward_next t false
  fun_induction collectDigits t draft with
  | case1 t draft finished =>
    have ended := t.isOver_iff.1 finished
    rw [ended, Grammar.collectDigits, ← ended]
    rfl
  | case2 t draft more e failed =>
    obtain ⟨c, taken⟩ := next_of_more more
    cases failed.symm.trans taken
  | case3 t draft more c taken digit ih =>
    obtain ⟨rest, ahead, moved⟩ := cursor_of_next taken
    have behind := congrArg Cursor.ahead moved
    rw [← ih ((onward t).inside inside), ahead, Grammar.collectDigits, if_pos digit, moved]
    exact congrArg _ behind.symm
  | case4 t draft more e second taken noDigit =>
    obtain ⟨rest, ahead, moved⟩ := cursor_of_next taken
    rw [ahead, Grammar.collectDigits, if_neg noDigit, if_pos rfl, second, moved]
  | case5 t draft more pointed point taken noDigit ih =>
    obtain ⟨rest, ahead, moved⟩ := cursor_of_next taken
    have behind := congrArg Cursor.ahead moved
    rw [← ih ((onward t).inside inside), ahead, Grammar.collectDigits, if_neg noDigit, if_pos rfl,
      point, moved]
    exact congrArg _ behind.symm
  | case6 t draft more c taken noDigit noPoint =>
    obtain ⟨rest, ahead, moved⟩ := cursor_of_next taken
    rw [ahead, Grammar.collectDigits, if_neg noDigit, if_neg noPoint,
      cursor_retreat ((onward t).inside inside), moved]
    rfl

theorem closeGroup_eq (inside : t.location ≤ t.size) (value : Float) :
    Grammar.closeGroup value t.cursor =
      ((t.closeGroup value).1, (t.closeGroup value).2.cursor) := by
  have skipped := (onward_skipIgnored t).inside inside
  rw [Grammar.closeGroup, ← cursor_skipIgnored, cursor_next skipped, cursor_isOver, closeGroup,
    nextPart]
  split
  · rfl
  · cases found : (t.skipIgnored.next true).1 with
    | error e => rfl
    | ok c =>
      dsimp only
      split
      · rw [← cursor_skipIgnored]
      · rfl

theorem separator_eq (inside : t.location ≤ t.size) :
    Grammar.separator t.cursor = (t.separator.1, t.separator.2.cursor) := by
  have skipped := (onward_skipIgnored t).inside inside
  rw [Grammar.separator, ← cursor_skipIgnored, cursor_next skipped, cursor_isOver, separator,
    nextPart]
  split
  · rfl
  · cases found : (t.skipIgnored.next true).1 with
    | error e => rfl
    | ok c =>
      dsimp only
      split
      · rfl
      · split
        · rw [← cursor_skipIgnored]
        · rfl

end Track

theorem Walked.forward {α : Type} {start : Track} (w : Walked α start) :
    w.track.cursor.ahead.length ≤ start.cursor.ahead.length := by
  rw [Track.ahead_length, Track.ahead_length]
  exact w.onward.left_le

namespace Walk

variable {α β : Type} {start : Track} {c : Cursor}

/-- The reading that a walk is at its position. -/
def read (p : Walk α start) : Reader α start.cursor :=
  p.map fun w => ⟨w.result, w.track.cursor, w.forward⟩

/-- Under the same answers, a walk and a reading make the same calls at the same places, come
    to the same result and leave the same position. -/
inductive Agrees : Walk α start → Reader α c → Prop where
  | done {w : Walked α start} {r : Reading α c} (result : w.result = r.result)
      (reached : w.track.cursor = r.cursor) : Agrees (.done w) (.done r)
  | call {request : Call} {site : Site} {resume : CallResult → Walk α start}
      {resume' : CallResult → Reader α c}
      (answered : ∀ answer, Agrees (resume answer) (resume' answer)) :
      Agrees (.call request site resume) (.call request site resume')

namespace Agrees

theorem settled {result : Except EvaluationError α} {t : Track} {onward : start.Onward t}
    {forward : t.cursor.ahead.length ≤ c.ahead.length} :
    Agrees (Walk.settled result t onward) (Reader.settled result t.cursor forward) :=
  .done rfl rfl

theorem since_left {p : Walk α start} {q : Reader α c} (agrees : Agrees p q) {earlier : Track}
    (onward : earlier.Onward start) : Agrees (p.since earlier onward) q := by
  induction agrees with
  | done result reached => exact .done result reached
  | call _ ih => exact .call ih

theorem since_right {p : Walk α start} {q : Reader α c} (agrees : Agrees p q) {d : Cursor}
    (le : c.ahead.length ≤ d.ahead.length) : Agrees p (q.since d le) := by
  induction agrees with
  | done result reached => exact .done result reached
  | call _ ih => exact .call ih

theorem since {p : Walk α start} {q : Reader α c} (agrees : Agrees p q) {earlier : Track}
    (onward : earlier.Onward start) {d : Cursor} (le : c.ahead.length ≤ d.ahead.length) :
    Agrees (p.since earlier onward) (q.since d le) :=
  (agrees.since_right le).since_left onward

theorem andThen {p : Walk α start} {q : Reader α c}
    {next : (x : α) → (t : Track) → start.Onward t → Walk β t}
    {next' : (x : α) → (d : Cursor) → d.ahead.length ≤ c.ahead.length → Reader β d}
    (first : Agrees p q)
    (second : ∀ x t onward le, Agrees (next x t onward) (next' x t.cursor le)) :
    Agrees (p.andThen next) (q.andThen next') := by
  induction first with
  | @done w r result reached =>
    obtain ⟨x, t, onward⟩ := w
    obtain ⟨y, d, forward⟩ := r
    have left : t.cursor = d := reached
    subst left
    cases result
    cases x with
    | error e => exact .done rfl rfl
    | ok x => exact (second x t onward forward).since onward forward
  | call _ ih => exact .call ih

theorem ask {place : Nat} {request : Call} {next : Float → Walk α start}
    {next' : Float → Reader α start.cursor} (answered : ∀ x, Agrees (next x) (next' x)) :
    Agrees (Walk.ask place request next) (Reader.ask place request next') := by
  refine .call fun answer => ?_
  cases answer with
  | error e => exact .done rfl rfl
  | ok x => exact answered x

theorem read_eq {p : Walk α start} {q : Reader α start.cursor} (agrees : Agrees p q) :
    read p = q := by
  induction agrees with
  | @done w r result reached =>
    obtain ⟨x, d, forward⟩ := r
    cases result
    have left : w.track.cursor = d := reached
    subst left
    rfl
  | call _ ih => exact congrArg (Interaction.call _ _) (funext ih)

end Agrees

/-- Each rule on a track agrees with the rule at its position. Where a number takes no sign it
    must not begin with a parenthesis. -/
theorem rules_agree {v : Vocabulary} (known : v.WellFormed) :
    (∀ tier t, t.location ≤ t.size → Agrees (chain known tier t) (Grammar.chain v tier t.cursor)) ∧
      (∀ tier x t, t.location ≤ t.size →
        Agrees (chainRest known tier x t) (Grammar.chainRest v tier x t.cursor)) ∧
      (∀ tier t, t.location ≤ t.size →
        Agrees (operand known tier t) (Grammar.operand v tier t.cursor)) ∧
      (∀ t, t.location ≤ t.size → Agrees (factor known t) (Grammar.factor v t.cursor)) ∧
      (∀ t, t.location ≤ t.size → Grammar.opens t.cursor = false →
        Agrees (number known t) (Grammar.number v t.cursor)) ∧
      (∀ sign t, t.location ≤ t.size → (sign = none → Grammar.startsGroup t.cursor = false) →
        Agrees (numberAfter known sign t) (Grammar.numberAfter v sign t.cursor)) ∧
      (∀ t, t.location ≤ t.size → Agrees (arguments known t) (Grammar.arguments v t.cursor)) ∧
      (∀ t, t.location ≤ t.size → ∀ c, c.accept? "(" = some t.cursor →
        Agrees (openArguments known t) (Grammar.arguments v c)) ∧
      ∀ t, t.location ≤ t.size → Agrees (argumentList known t) (Grammar.argumentList v t.cursor) := by
  -- By the recursion of the rules on tracks. The track stands in its text wherever a rule is
  -- entered, so taking and giving back a character agree as well.
  apply chain.mutual_induct known
  case case1 =>
    intro tier t first rest inside
    rw [chain, Grammar.chain]
    exact (first inside).andThen fun x u onward _ => rest x u onward (onward.inside inside)
  case case2 =>
    intro tier x t missed inside
    have taken := t.takeOperator_eq known tier
    rw [missed] at taken
    obtain ⟨none, stays⟩ := Scan.of_ofTaken_eq_none taken.symm
    rw [chainRest_of_missed known x missed, Grammar.chainRest, none]
    exact .done rfl stays
  case case3 =>
    intro tier x t entry found right rest inside
    have taken := t.takeOperator_eq known tier
    have behind := (t.onward_takeOperator v tier).inside inside
    rw [found] at taken
    obtain ⟨forward, some⟩ := Scan.exists_of_ofTaken_eq_some taken.symm
    rw [chainRest_of_taken known x found, Grammar.chainRest, some]
    refine Agrees.since ((right behind).andThen fun y u onward _ => .ask fun z => ?_) _ _
    exact rest u onward z (onward.inside behind)
  case case4 | case5 | case6 =>
    intro t operands inside
    rw [operand, Grammar.operand]
    exact operands inside
  case case7 =>
    intro t e failed inside
    have next := Track.cursor_next inside true
    rw [failed] at next
    rw [factor_of_error known failed, Grammar.factor_of_error next]
    exact .settled
  case case8 =>
    intro t opened polynomial inside
    have next := Track.cursor_next inside true
    have behind := (t.onward_next true).inside inside
    rw [opened] at next
    rw [factor_of_group known opened, Grammar.factor_of_group next]
    refine Agrees.since ((polynomial behind).andThen fun x u onward _ => ?_) _ _
    obtain ⟨same, reached⟩ := Prod.mk.inj (Track.closeGroup_eq (onward.inside behind) x)
    exact .done same.symm reached.symm
  case case9 =>
    intro t first taken other inner inside
    have next := Track.cursor_next inside true
    have behind := (t.onward_next true).inside inside
    have back := (Track.onward_retreat taken).inside inside
    have number := inner back (Track.opens_retreat taken other)
    rw [taken] at next
    rw [Track.cursor_retreat behind] at number
    rw [factor_of_number known taken other, Grammar.factor_of_number next other]
    exact number.since _ _
  case case10 =>
    intro t inner inside noOpen
    have taken := t.takeSign_eq
    have behind := t.onward_takeSign.inside inside
    rw [number, Grammar.number]
    cases sign : t.takeSign.1 with
    | none =>
      rw [sign] at taken inner
      obtain ⟨unsigned, stays⟩ := Scan.of_ofTaken_eq_none taken.symm
      have noGroup : Grammar.startsGroup t.cursor = false := by
        cases group : Grammar.startsGroup t.cursor with
        | false => rfl
        | true => exact (Grammar.opens_of_unsigned unsigned group).symm.trans noOpen
      rw [unsigned]
      rw [stays] at inner
      exact (inner behind fun _ => noGroup).since_left _
    | some entry =>
      rw [sign] at taken inner
      obtain ⟨forward, signed⟩ := Scan.exists_of_ofTaken_eq_some taken.symm
      rw [signed]
      have signedNumber := inner behind fun unsigned => absurd unsigned (Option.some_ne_none _)
      exact signedNumber.since _ _
  case case11 =>
    intro sign t name f found arguments inside _
    have taken := t.opening_isAt known
    have behind := (t.onward_opening v).inside inside
    rw [found] at taken
    obtain ⟨forward, function⟩ := taken
    rw [numberAfter_of_call known sign found, Grammar.numberAfter, function]
    refine Agrees.since ((arguments behind).andThen fun xs u _ _ => .ask fun x => ?_) _ _
    exact .settled
  case case12 =>
    intro sign t value found inside _
    have taken := t.opening_isAt known
    rw [found] at taken
    obtain ⟨noFunction, name, forward, constant⟩ := taken
    rw [numberAfter_of_constant known sign found, Grammar.numberAfter, noFunction, constant]
    exact .settled
  case case13 =>
    intro sign t found polynomial inside unsigned
    have taken := t.opening_isAt known
    have behind := (t.onward_opening v).inside inside
    rw [found] at taken
    obtain ⟨noFunction, noConstant, group, stays⟩ := taken
    have chain := polynomial behind
    rw [stays] at chain
    -- The rule at a position asks for a sign, the one on a track does not: no group is entered
    -- without one.
    have signed : sign.isSome = true := by
      cases sign with
      | none =>
        rw [unsigned rfl] at group
        cases group
      | some sign => rfl
    rw [numberAfter_of_group known sign found, Grammar.numberAfter, noFunction, noConstant]
    simp only [signed, group, and_self, dite_true]
    exact (chain.andThen fun x u _ _ => .settled).since_left _
  case case14 =>
    intro sign t found inside _
    have taken := t.opening_isAt known
    have behind := (t.onward_opening v).inside inside
    rw [found] at taken
    obtain ⟨noFunction, noConstant, noGroup, stays⟩ := taken
    have collected := Track.collectDigits_eq behind (Numeral.Draft.ofSign sign)
    rw [← Track.cursor_ahead, stays] at collected
    have no : ¬ (sign.isSome = true ∧ Grammar.startsGroup t.cursor = true) := by simp [noGroup]
    rw [numberAfter_of_digits known sign found, Grammar.numberAfter, noFunction, noConstant]
    simp only [no, dite_false]
    refine .done ?_ ?_
    · exact congrArg (fun step => step.1.bind (·.read)) collected.symm
    · exact congrArg (·.2) collected.symm
  case case15 =>
    intro t opened inner inside
    have behind := (t.onward_accept "(").inside inside
    rw [arguments, dif_pos opened]
    exact (inner behind _ (Track.accept?_of_found opened)).since_left _
  case case16 =>
    intro t missed inside
    obtain ⟨none, stays⟩ := Track.accept?_of_missed missed
    rw [arguments, dif_neg missed, Grammar.arguments_of_missing none]
    exact .done rfl stays
  case case17 =>
    intro t closed inside c opened
    rw [openArguments, if_pos closed,
      Grammar.arguments_of_closed opened (Track.accept?_of_found closed)]
    exact .settled
  case case18 =>
    intro t more inner inside c opened
    obtain ⟨none, stays⟩ := Track.accept?_of_missed more
    have behind := (t.onward_accept ")").inside inside
    have list := inner behind
    rw [stays] at list
    rw [openArguments, if_neg more, Grammar.arguments_of_more opened none]
    exact list.since _ _
  case case19 =>
    intro t ended inside
    have finished := t.cursor_isOver.trans ended
    rw [argumentList, if_pos ended, Grammar.argumentList_of_over finished]
    exact .settled
  case case20 =>
    intro t more polynomial others inside
    have going : ¬ t.cursor.isOver = true := by rwa [t.cursor_isOver]
    rw [argumentList, if_neg more, Grammar.argumentList_of_more going]
    refine (polynomial inside).andThen fun x u onward _ => ?_
    have separated := Track.separator_eq (onward.inside inside)
    have behind := (onward.trans u.onward_separator).inside inside
    split
    · rename_i e failed
      rw [failed] at separated
      rw [Grammar.furtherArguments_of_error separated]
      exact .settled
    · rename_i last
      rw [last] at separated
      rw [Grammar.furtherArguments_of_last separated]
      exact .settled
    · rename_i comma
      rw [comma] at separated
      rw [Grammar.furtherArguments_of_more separated]
      exact Agrees.since ((others u onward comma behind).andThen fun xs w _ _ => .settled) _ _

end Walk

end Calculator
