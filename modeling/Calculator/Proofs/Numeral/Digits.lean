import Calculator.Proofs.Evaluation.Rules
import Calculator.Proofs.Numeral.Spelling

/-!
# Raw digits

Digits are collected up to the first character that is neither a digit nor a
point. What is collected either is a plain numeral, and then it is read as one, or
it is refused: for a second point, or for having no digit in front.
-/
namespace Calculator.Grammar
open Unread Numeral

/-- The text does not go on with a digit or a point. -/
def EndsNumber (text : List Char) : Prop :=
  ∀ c ∈ text.head?, Character.isDigit c = false ∧ c ≠ '.'

theorem collectDigits_run {run : List Char} (isDigits : run.all Character.isDigit = true)
    (draft : Draft) (passed behind : List Char) :
    collectDigits draft passed (run ++ behind) =
      collectDigits { draft with text := draft.text ++ String.ofList run } (run.reverse ++ passed)
        behind := by
  induction run generalizing draft passed with
  | nil => simp
  | cons c run ih =>
    rw [List.all_cons, Bool.and_eq_true] at isDigits
    rw [List.cons_append, collectDigits, if_pos isDigits.1, ih isDigits.2]
    have text : draft.text.push c ++ String.ofList run = draft.text ++ String.ofList (c :: run) := by
      rw [← String.toList_inj]
      simp
    simp [Draft.pushDigit, text]

theorem collectDigits_of_ends {behind : List Char} (ends : EndsNumber behind) (draft : Draft)
    (passed : List Char) : collectDigits draft passed behind = (.ok draft, ⟨passed, behind⟩) := by
  cases behind with
  | nil => rfl
  | cons c rest =>
    obtain ⟨noDigit, noPoint⟩ := ends c rfl
    simp [collectDigits, noDigit, noPoint]

theorem collectDigits_point (text : String) (passed rest : List Char) :
    collectDigits ⟨text, false⟩ passed ('.' :: rest) =
      collectDigits ⟨text.push '.', true⟩ ('.' :: passed) rest := by
  rw [collectDigits, if_neg (by decide), if_pos rfl]
  rfl

theorem collectDigits_second_point (text : String) (passed rest : List Char) :
    (collectDigits ⟨text, true⟩ passed ('.' :: rest)).1 = .error (.secondPoint text) := by
  rw [collectDigits, if_neg (by decide), if_pos rfl]
  rfl

theorem ofSign_eq (sign : Option Char) : Draft.ofSign sign = ⟨String.ofList sign.toList, false⟩ := by
  cases sign with
  | none => rfl
  | some s => simp [Draft.ofSign, Draft.pushSign, Draft.empty]

/-- A single digit is a plain numeral. -/
theorem plain_of_isDigit {c : Char} (digit : Character.isDigit c = true) : IsPlainNumeral [c] :=
  ⟨[c], [], List.cons_ne_nil _ _, by simpa using digit, rfl, .inl rfl⟩

/-- A plain numeral begins with a digit. -/
theorem exists_digit_of_plain {ds : List Char} (plain : IsPlainNumeral ds) :
    ∃ c rest, ds = c :: rest ∧ Character.isDigit c = true := by
  obtain ⟨whole, fraction, nonempty, wholeDigits, -, split⟩ := plain
  obtain ⟨c, rest, rfl⟩ := List.exists_cons_of_ne_nil nonempty
  rw [List.all_cons, Bool.and_eq_true] at wholeDigits
  rcases split with rfl | rfl
  · exact ⟨c, rest, rfl, wholeDigits.1⟩
  · exact ⟨c, rest ++ '.' :: fraction, rfl, wholeDigits.1⟩

/-- A digit is neither ignored nor a sign nor a parenthesis. -/
theorem isIgnored_of_isDigit {c : Char} (digit : Character.isDigit c = true) :
    Character.isIgnored c = false ∧ Character.isSign c = false ∧ c ≠ '(' := by
  refine ⟨?_, ?_, ne_of_class digit (by decide)⟩
  · rw [← Bool.not_eq_true, Character.isIgnored_iff]
    exact not_or.2 ⟨ne_of_class digit (by decide), ne_of_class digit (by decide)⟩
  · rw [← Bool.not_eq_true, Character.isSign_iff]
    exact not_or.2 ⟨ne_of_class digit (by decide), ne_of_class digit (by decide)⟩

theorem skip_of_plain {ds : List Char} (plain : IsPlainNumeral ds) (behind : List Char) :
    skip (ds ++ behind) = ds ++ behind := by
  obtain ⟨c, rest, rfl, digit⟩ := exists_digit_of_plain plain
  exact skip_cons (isIgnored_of_isDigit digit).1 _

/-- A plain numeral does not begin a group. -/
theorem startsGroup_of_plain {ds : List Char} (plain : IsPlainNumeral ds) (behind : List Char) :
    Unread.startsGroup (ds ++ behind) = false := by
  have begins := skip_of_plain plain behind
  obtain ⟨c, rest, rfl, digit⟩ := exists_digit_of_plain plain
  obtain ⟨-, unsigned, unopened⟩ := isIgnored_of_isDigit digit
  rw [Unread.startsGroup, begins]
  simp [unsigned, unopened]

/-- A plain numeral is collected whole. -/
theorem collectDigits_of_plain {ds behind : List Char} (plain : IsPlainNumeral ds)
    (ends : EndsNumber behind) (sign : Option Char) (passed : List Char) :
    ∃ hasPoint, collectDigits (Draft.ofSign sign) passed (ds ++ behind) =
      (.ok ⟨String.ofList (sign.toList ++ ds), hasPoint⟩, ⟨ds.reverse ++ passed, behind⟩) := by
  obtain ⟨whole, fraction, -, wholeDigits, fractionDigits, rfl | rfl⟩ := plain
  · refine ⟨false, ?_⟩
    rw [collectDigits_run wholeDigits, collectDigits_of_ends ends, ofSign_eq]
    simp
  · refine ⟨true, ?_⟩
    rw [List.append_assoc, collectDigits_run wholeDigits, ofSign_eq, List.cons_append,
      collectDigits_point, collectDigits_run fractionDigits, collectDigits_of_ends ends]
    simp [← String.toList_inj]

theorem digits_result (draft : Draft) (c : Cursor) :
    (digits draft c).result = (collectDigits draft c.passed c.ahead).1.bind (·.read) := rfl

theorem digits_cursor (draft : Draft) (c : Cursor) :
    (digits draft c).cursor = (collectDigits draft c.passed c.ahead).2 := rfl

theorem digits_of_plain {c : Cursor} {ds behind : List Char} (plain : IsPlainNumeral ds)
    (ends : EndsNumber behind) (ahead : c.ahead = ds ++ behind) (sign : Option Char) :
    (digits (Draft.ofSign sign) c).result = Numeral.read (String.ofList (sign.toList ++ ds)) ∧
      (digits (Draft.ofSign sign) c).cursor.ahead = behind := by
  obtain ⟨hasPoint, collected⟩ := collectDigits_of_plain plain ends sign c.passed
  rw [digits_result, digits_cursor, ahead, collected]
  exact ⟨rfl, rfl⟩

/-- A text without a digit in front of its point, if any, is no numeral. -/
theorem read_of_no_whole {sign : Option Char} (optional : IsOptionalSign sign) {rest : List Char}
    (pointed : ∀ c ∈ rest.head?, c = '.') :
    Numeral.read (String.ofList (sign.toList ++ rest)) =
      .error (.malformedNumeral (String.ofList (sign.toList ++ rest))) := by
  have noBody : bodyOf? rest = none := by
    cases rest with
    | nil => rfl
    | cons c rest =>
      obtain rfl : c = '.' := pointed c rfl
      simp [bodyOf?, splitDigits, show isDecimalDigit '.' = false by decide]
  have unsigned : IsUnsignedText rest := by
    intro c head
    obtain rfl : c = '.' := pointed c head
    decide
  have noShape : shapeOf? (sign.toList ++ rest) = none := by
    rw [shapeOf?, splitSign_append optional unsigned]
    simp [noBody]
  rw [Numeral.read, String.toList_ofList, noShape]

/-- A text is a run of digits and what follows the longest such run. -/
theorem exists_digits (text : List Char) :
    ∃ run behind, run.all Character.isDigit = true ∧ text = run ++ behind ∧
      ∀ c ∈ behind.head?, Character.isDigit c = false :=
  ⟨text.takeWhile Character.isDigit, text.dropWhile Character.isDigit, List.all_takeWhile,
    List.takeWhile_append_dropWhile.symm, stops_dropWhile _ text⟩

/-- Behind digits there is a point, or the number ends. -/
theorem endsNumber_or_point {behind : List Char}
    (stopped : ∀ c ∈ behind.head?, Character.isDigit c = false) :
    EndsNumber behind ∨ ∃ rest, behind = '.' :: rest := by
  cases behind with
  | nil => exact .inl nofun
  | cons c rest =>
    by_cases point : c = '.'
    · exact .inr ⟨rest, by rw [point]⟩
    · refine .inl fun d head => ?_
      cases head
      exact ⟨stopped c rfl, point⟩

/-- Digits that come to a number are those of a plain numeral. -/
theorem digits_exhaustive {sign : Option Char} (optional : IsOptionalSign sign) (text : List Char) :
    (∃ ds behind, IsPlainNumeral ds ∧ EndsNumber behind ∧ text = ds ++ behind) ∨
      ∀ c : Cursor, c.ahead = text → ∃ written, (digits (Draft.ofSign sign) c).result =
        .error (.malformedNumeral written) ∨
          (digits (Draft.ofSign sign) c).result = .error (.secondPoint written) := by
  obtain ⟨whole, behind, wholeDigits, rfl, stopped⟩ := exists_digits text
  rcases endsNumber_or_point stopped with ends | ⟨rest, rfl⟩
  · by_cases empty : whole = []
    · have refused :=
        read_of_no_whole optional (show ∀ c ∈ ([] : List Char).head?, c = '.' from nofun)
      rw [List.append_nil] at refused
      refine .inr fun c ahead => ⟨String.ofList sign.toList, .inl ?_⟩
      rw [digits_result, ahead, empty, List.nil_append, collectDigits_of_ends ends, ofSign_eq]
      exact refused
    · exact .inl ⟨whole, behind, ⟨whole, [], empty, wholeDigits, rfl, .inl rfl⟩, ends, rfl⟩
  · obtain ⟨fraction, behind, fractionDigits, rfl, last⟩ := exists_digits rest
    rcases endsNumber_or_point last with ends | ⟨others, rfl⟩
    · by_cases empty : whole = []
      · refine .inr fun c ahead => ⟨String.ofList (sign.toList ++ '.' :: fraction), .inl ?_⟩
        have text : (String.ofList sign.toList).push '.' ++ String.ofList fraction =
            String.ofList (sign.toList ++ '.' :: fraction) := by
          simp [← String.toList_inj]
        rw [digits_result, ahead, empty, List.nil_append, ofSign_eq, collectDigits_point,
          collectDigits_run fractionDigits, collectDigits_of_ends ends, text]
        exact read_of_no_whole optional (by simp)
      · refine .inl ⟨whole ++ '.' :: fraction, behind,
          ⟨whole, fraction, empty, wholeDigits, fractionDigits, .inr rfl⟩, ends, by simp⟩
    · refine .inr fun c ahead =>
        ⟨(String.ofList sign.toList ++ String.ofList whole).push '.' ++ String.ofList fraction,
          .inr ?_⟩
      rw [digits_result, ahead, ofSign_eq, collectDigits_run wholeDigits, collectDigits_point,
        collectDigits_run fractionDigits, collectDigits_second_point]
      rfl

end Calculator.Grammar
