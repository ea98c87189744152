import Calculator.Proofs.Evaluation.Course
import Calculator.Proofs.Evaluation.InStep

/-!
# Rules make progress

A rule that ends with a value has passed a character, though it may have given characters
back on the way. A number may pass none; but then nothing was collected behind its sign, and
a sign alone or nothing at all is no numeral. On the way no rule leaves the text or falls back
behind its start.
-/
namespace Calculator

namespace Track

variable {t : Track}

/-- Where no digit was passed, nothing was collected. -/
theorem lt_or_eq_of_collectDigits {draft collected : Numeral.Draft}
    (ended : (t.collectDigits draft).1 = .ok collected) :
    t.location < (t.collectDigits draft).2.location ∨ collected = draft := by
  have passed {t : Track} {c : Char} {draft : Numeral.Draft} (taken : (t.next false).1 = .ok c) :
      t.location < ((t.next false).2.collectDigits draft).2.location :=
    (lt_of_next taken).trans_le (onward_collectDigits _ draft).low
  fun_induction collectDigits t draft with
  | case1 t draft finished => exact .inr (Except.ok.inj ended).symm
  | case2 t draft more e failed => cases ended
  | case3 t draft more c taken digit ih => exact .inl (passed taken)
  | case4 t draft more e second taken noDigit => cases ended
  | case5 t draft more pointed point taken noDigit ih => exact .inl (passed taken)
  | case6 t draft more c taken noDigit noPoint => exact .inr (Except.ok.inj ended).symm

/-- Digits that are read are passed. -/
theorem lt_of_digits {sign : Option Char} (optional : IsOptionalSign sign) {x : Float}
    (read : (t.collectDigits (.ofSign sign)).1.bind (·.read) = .ok x) :
    t.location < (t.collectDigits (.ofSign sign)).2.location := by
  cases ended : (t.collectDigits (.ofSign sign)).1 with
  | error e =>
    rw [ended] at read
    cases read
  | ok collected =>
    refine (lt_or_eq_of_collectDigits ended).resolve_right ?_
    rintro rfl
    have refused : Numeral.read (String.ofList (sign.toList ++ [])) = _ :=
      Grammar.read_of_no_whole optional nofun
    rw [List.append_nil] at refused
    rw [ended, Grammar.ofSign_eq] at read
    cases refused.symm.trans read

theorem isOptionalSign_takeSign (t : Track) :
    IsOptionalSign (t.takeSign.1.map (·.2)) := by
  have same := t.takeSign_eq
  cases found : t.takeSign.1 with
  | none => exact Numeral.isOptionalSign_none
  | some entry =>
    rw [found] at same
    obtain ⟨forward, taken⟩ := Scan.exists_of_ofTaken_eq_some same.symm
    exact Grammar.isSign_of_takeSign? taken

end Track

namespace Walk

variable {α β : Type} {start : Track}

/-- Where the walk waits for a call it has gone onward, and where it ends with a value it has
    come to a location. -/
inductive Advances (least : Nat) : Walk α start → Prop where
  | done {w : Walked α start} (reached : ∀ x, w.result = .ok x → least ≤ w.track.location) :
      Advances least (.done w)
  | call {request : Call} {site : Site} {resume : CallResult → Walk α start} {t : Track}
      (onward : start.Onward t) (place : site.cursor = t.cursor)
      (answered : ∀ answer, Advances least (resume answer)) :
      Advances least (.call request site resume)

namespace Advances

variable {least further : Nat}

theorem settled {result : Except EvaluationError α} {t : Track} {onward : start.Onward t}
    (reached : ∀ x, result = .ok x → least ≤ t.location) :
    Advances least (Walk.settled result t onward) := .done reached

theorem failed {e : EvaluationError} {t : Track} {onward : start.Onward t} :
    Advances least (Walk.settled (.error e) t onward : Walk α start) := .settled nofun

theorem mono {p : Walk α start} (advances : Advances further p) (le : least ≤ further) :
    Advances least p := by
  induction advances with
  | done reached => exact .done fun x value => le.trans (reached x value)
  | call onward place _ ih => exact .call onward place ih

theorem since {p : Walk α start} (advances : Advances least p) {earlier : Track}
    (onward : earlier.Onward start) : Advances least (p.since earlier onward) := by
  induction advances with
  | done reached => exact .done reached
  | call inner place _ ih => exact .call (onward.trans inner) place ih

theorem andThen {p : Walk α start} {next : (x : α) → (t : Track) → start.Onward t → Walk β t}
    (first : Advances least p)
    (second : ∀ x t onward, least ≤ t.location → Advances further (next x t onward)) :
    Advances further (p.andThen next) := by
  induction first with
  | @done w reached =>
    obtain ⟨result, t, onward⟩ := w
    cases result with
    | error e => exact .failed
    | ok x => exact (second x t onward (reached x rfl)).since onward
  | call onward place _ ih => exact .call onward place ih

theorem ask {place : Nat} {request : Call} {next : Float → Walk α start}
    (answered : ∀ x, Advances least (next x)) : Advances least (Walk.ask place request next) := by
  refine .call (.refl start) rfl fun answer => ?_
  cases answer with
  | error e => exact .failed
  | ok x => exact answered x

end Advances

/-- Every rule passes a character, but for the operators behind an operand and the arguments
    behind their parenthesis. -/
theorem rules_advance {v : Vocabulary} (known : v.WellFormed) :
    (∀ tier t, Advances (t.location + 1) (chain known tier t)) ∧
      (∀ tier x t, Advances t.location (chainRest known tier x t)) ∧
      (∀ tier t, Advances (t.location + 1) (operand known tier t)) ∧
      (∀ t, Advances (t.location + 1) (factor known t)) ∧
      (∀ t, Advances (t.location + 1) (number known t)) ∧
      (∀ sign t, IsOptionalSign sign →
        Advances (t.location + 1) (numberAfter known sign t)) ∧
      (∀ t, Advances (t.location + 1) (arguments known t)) ∧
      (∀ t, Advances t.location (openArguments known t)) ∧
      ∀ t, Advances (t.location + 1) (argumentList known t) := by
  -- By the recursion of the rules: one part of each passes a character, and the parts behind it
  -- go onward from there.
  apply chain.mutual_induct known
  case case1 =>
    intro tier t first rest
    rw [chain]
    exact first.andThen fun x u onward passed => (rest x u onward).mono passed
  case case2 =>
    intro tier x t missed
    rw [chainRest_of_missed known x missed]
    exact .settled fun _ _ => (t.onward_takeOperator v tier).low
  case case3 =>
    intro tier x t entry taken right rest
    have behind := (t.onward_takeOperator v tier).low
    rw [chainRest_of_taken known x taken]
    refine Advances.since (right.andThen fun y u onward passed => .ask fun z => ?_) _
    exact (rest u onward z).mono (by omega)
  case case4 | case5 | case6 =>
    intro t operands
    rw [operand]
    exact operands
  case case7 =>
    intro t e failed
    rw [factor_of_error known failed]
    exact .failed
  case case8 =>
    intro t opened polynomial
    have passed := Track.lt_of_next opened
    rw [factor_of_group known opened]
    refine Advances.since (polynomial.andThen fun x u _ further => .settled fun _ _ => ?_) _
    have behind := (u.onward_closeGroup x).low
    omega
  case case9 =>
    intro t first taken other inner
    have back := (Track.onward_retreat taken).low
    rw [factor_of_number known taken other]
    exact (inner.mono (by omega)).since _
  case case10 =>
    intro t inner
    have behind := t.onward_takeSign.low
    rw [number]
    exact ((inner t.isOptionalSign_takeSign).mono (by omega)).since _
  case case11 =>
    intro sign t name f found inside _
    have passed := (t.onward_opening v).left_lt_iff.1
      (Track.left_opening_lt known (by simp [found]) (by simp [found]))
    rw [numberAfter_of_call known sign found]
    refine Advances.since (inside.andThen fun xs u _ further => .ask fun x => .settled ?_) _
    exact fun _ _ => by omega
  case case12 =>
    intro sign t value found _
    have passed := (t.onward_opening v).left_lt_iff.1
      (Track.left_opening_lt known (by simp [found]) (by simp [found]))
    rw [numberAfter_of_constant known sign found]
    exact .settled fun _ _ => passed
  case case13 =>
    intro sign t found polynomial _
    have behind := (t.onward_opening v).low
    rw [numberAfter_of_group known sign found]
    refine Advances.since (polynomial.andThen fun x u _ further => .settled ?_) _
    exact fun _ _ => by omega
  case case14 =>
    -- Nothing in front of the digits need have been passed, so the digits are what counts.
    intro sign t found optional
    have behind := (t.onward_opening v).low
    rw [numberAfter_of_digits known sign found]
    exact .settled fun x read => behind.trans_lt (Track.lt_of_digits optional read)
  case case15 =>
    intro t opened inside
    have passed := (t.onward_accept "(").left_lt_iff.1 (Track.left_accept_lt (by decide) opened)
    rw [arguments, dif_pos opened]
    exact (inside.mono passed).since _
  case case16 =>
    intro t missed
    rw [arguments, dif_neg missed]
    exact .failed
  case case17 =>
    intro t closed
    rw [openArguments, if_pos closed]
    exact .settled fun _ _ => (t.onward_accept ")").low
  case case18 =>
    intro t more inside
    have stays := (t.onward_accept ")").low
    rw [openArguments, if_neg more]
    exact (inside.mono (by omega)).since _
  case case19 =>
    intro t ended
    rw [argumentList, if_pos ended]
    exact .failed
  case case20 =>
    intro t more polynomial others
    rw [argumentList, if_neg more]
    refine polynomial.andThen fun x u onward passed => ?_
    have behind := u.onward_separator.low
    split
    · exact .failed
    · exact .settled fun _ _ => by omega
    · rename_i comma
      refine Advances.since ((others u onward comma).andThen fun xs w _ further => ?_) _
      exact .settled fun _ _ => by omega

theorem Advances.course {least : Nat} {p : Walk α start} (advances : Advances least p)
    {made : List Exchange} {w : Walked α start} (course : p.Course made w) :
    (∀ exchange ∈ made, ∃ t, start.Onward t ∧ exchange.site.cursor = t.cursor) ∧
      ∀ x, w.result = .ok x → least ≤ w.track.location := by
  induction course with
  | done w =>
    cases advances with
    | done reached => exact ⟨nofun, reached⟩
  | call _ ih =>
    cases advances with
    | @call _ _ _ t onward place answered =>
      obtain ⟨others, reached⟩ := ih (answered _)
      exact ⟨List.forall_mem_cons.2 ⟨⟨t, onward, place⟩, others⟩, reached⟩

/-! ## What holds of the rules -/

/-- Whatever the calls of the walk are answered, it stays in the text, at or behind its start,
    and a value is not read from nothing. -/
structure Progresses (p : Walk α start) : Prop where
  text {made : List Exchange} {w : Walked α start} :
    p.Course made w → w.track.characters = start.characters
  /-- The locations on the way, and the one it ends at. -/
  locations {made : List Exchange} {w : Walked α start} :
    p.Course made w → ∃ on, w.track.earlier = on ++ start.earlier ∧
      ∀ l ∈ w.track.location :: on, start.location ≤ l ∧ l ≤ start.size
  /-- The positions that calls are made at. -/
  calls {made : List Exchange} {w : Walked α start} :
    p.Course made w → ∀ exchange ∈ made,
      exchange.site.cursor.text = start.characters ∧
        start.location ≤ exchange.site.cursor.location ∧
          exchange.site.cursor.location ≤ start.size
  forward {made : List Exchange} {w : Walked α start} {x : α} :
    p.Course made w → w.result = .ok x → start.location < w.track.location

theorem Advances.progresses {p : Walk α start} (advances : Advances (start.location + 1) p)
    (inside : start.location ≤ start.size) : p.Progresses where
  text {_ w} _ := w.onward.characters
  locations {_ w} _ := by
    have bound : max start.location start.size = start.size := max_eq_right inside
    obtain ⟨on, earlier, passed⟩ := w.onward.passed
    have high := w.onward.high
    rw [bound] at high
    refine ⟨on, earlier, List.forall_mem_cons.2 ⟨⟨w.onward.low, high⟩, fun l on => ?_⟩⟩
    rw [← bound]
    exact passed l on
  calls {_ w} course exchange listed := by
    obtain ⟨t, onward, place⟩ := (advances.course course).1 exchange listed
    have within := onward.inside inside
    rw [place, Track.cursor_text, Track.cursor_location within]
    exact ⟨onward.characters, onward.low, within.trans onward.size.le⟩
  forward course value := (advances.course course).2 _ value

/-- What holds of the rules where a track stands. -/
structure RulesProgress {v : Vocabulary} (known : v.WellFormed) (start : Track) : Prop where
  chain (tier : Tier) : (chain known tier start).Progresses
  factor : (factor known start).Progresses
  number : (number known start).Progresses
  arguments : (arguments known start).Progresses
  read_chain (tier : Tier) : read (Walk.chain known tier start) = Grammar.chain v tier start.cursor
  read_factor : read (Walk.factor known start) = Grammar.factor v start.cursor
  /-- A factor enters no number that begins with a parenthesis. -/
  read_number :
    Grammar.opens start.cursor = false →
      read (Walk.number known start) = Grammar.number v start.cursor
  read_arguments : read (Walk.arguments known start) = Grammar.arguments v start.cursor
  /-- A number that a factor enters goes on with a group only where it has taken a sign. -/
  signed {first : Char} :
    (start.next true).1 = .ok first → first ≠ '(' →
      ((start.next true).2.retreat.takeSign.2.opening v).1 = .group →
        (start.next true).2.retreat.takeSign.1.isSome = true

/-- Behind a character that was given back, a group is started by a sign. -/
theorem isSome_sign_of_group {v : Vocabulary} (known : v.WellFormed) {start : Track} {first : Char}
    (taken : (start.next true).1 = .ok first) (other : first ≠ '(')
    (group : ((start.next true).2.retreat.takeSign.2.opening v).1 = .group) :
    (start.next true).2.retreat.takeSign.1.isSome = true := by
  cases sign : (start.next true).2.retreat.takeSign.1 with
  | some entry => rfl
  | none =>
    have same := (start.next true).2.retreat.takeSign_eq
    have opening := (start.next true).2.retreat.takeSign.2.opening_isAt known
    rw [sign] at same
    rw [group] at opening
    obtain ⟨unsigned, stays⟩ := Scan.of_ofTaken_eq_none same.symm
    obtain ⟨-, -, starts, -⟩ := opening
    rw [stays] at starts
    have opens := Grammar.opens_of_unsigned unsigned starts
    cases opens.symm.trans (Track.opens_retreat taken other)

/-- Every rule that a track stands at makes progress in its text, and is the rule at its
    position. -/
theorem rules_progress {v : Vocabulary} (reachable : v.Reachable) {start : Track}
    (inside : start.location ≤ start.size) : RulesProgress reachable.wellFormed start := by
  obtain ⟨chain, -, -, factor, number, -, arguments, -⟩ := rules_advance reachable.wellFormed
  obtain ⟨readChain, -, -, readFactor, readNumber, -, readArguments, -⟩ :=
    rules_agree reachable.wellFormed
  exact {
    chain := fun tier => (chain tier start).progresses inside
    factor := (factor start).progresses inside
    number := (number start).progresses inside
    arguments := (arguments start).progresses inside
    read_chain := fun tier => (readChain tier start inside).read_eq
    read_factor := (readFactor start inside).read_eq
    read_number := fun noOpen => (readNumber start inside noOpen).read_eq
    read_arguments := (readArguments start inside).read_eq
    signed := isSome_sign_of_group reachable.wellFormed }

/-- In front of a signed group, behind other text. -/
theorem rules_progress_signed_group :
    RulesProgress Vocabulary.Reachable.standard.wellFormed ⟨"2 * -(1)".toList, 3, [2, 0]⟩ :=
  rules_progress .standard (by decide)

end Walk

end Calculator
