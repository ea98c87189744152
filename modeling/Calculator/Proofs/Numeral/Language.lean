import Calculator.Proofs.Numeral.RoundTrip

/-!
# The language of numerals

A text is read exactly when it is a numeral of ASCII digits: a sign or nothing, and then a
word or digits with a point, a fraction or a power of ten. Every other text is refused under
its own name. The refusal has a cause if the text has the shape of a numeral, which may be
made of the digits of any script and may end in a point behind a fraction. How a power of ten
is marked does not change the value, and a sign changes nothing but the sign.
-/
namespace Calculator.Numeral
open Number

/-! ## The language -/

/-- A text of a language behind a sign or nothing. -/
def BehindSign (language : List Char → Prop) (text : List Char) : Prop :=
  ∃ sign behind, IsOptionalSign sign ∧ text = sign.toList ++ behind ∧ language behind

/-- Digits of a class with an optional fraction. -/
inductive IsMantissa (digit : Char → Bool) : List Char → Prop where
  | whole {whole : List Char} (run : IsRun digit whole) : IsMantissa digit whole
  | fraction {whole fraction : List Char} (run : IsRun digit whole)
      (fractional : IsRun digit fraction) : IsMantissa digit (whole ++ '.' :: fraction)

/-- A numeral of the digits of a class, behind its sign. -/
inductive IsNumeral (digit : Char → Bool) : List Char → Prop where
  | mantissa {mantissa : List Char} (digits : IsMantissa digit mantissa) : IsNumeral digit mantissa
  | point {whole : List Char} (run : IsRun digit whole) : IsNumeral digit (whole ++ ['.'])
  | power {mantissa mark power : List Char} (digits : IsMantissa digit mantissa)
      (marked : mark ∈ marks) (run : BehindSign (IsRun digit) power) :
      IsNumeral digit (mantissa ++ (mark ++ power))
  | infinity : IsNumeral digit "Infinity".toList
  | nan : IsNumeral digit "NaN".toList

/-- What has the shape of a numeral, behind its sign: a numeral of the digits of any script,
    and also one with a point behind its fraction. -/
inductive IsShaped : List Char → Prop where
  | numeral {chars : List Char} (numeral : IsNumeral isDecimalDigit chars) : IsShaped chars
  | secondPoint {whole fraction : List Char} (run : IsRun isDecimalDigit whole)
      (fractional : IsRun isDecimalDigit fraction) :
      IsShaped (whole ++ '.' :: (fraction ++ ['.']))

/-! ## Bodies of a language -/

/-- Whether the digits of an ending are of a class, and no point follows a fraction. -/
def Ending.Admits (digit : Char → Bool) (fraction : List Char) : Ending → Prop
  | .none => True
  | .point => fraction = []
  | .power _ digits => digits.all digit = true

/-- Whether the digits of a body are of a class, and no point follows its fraction. -/
def Body.Admits (digit : Char → Bool) : Body → Prop
  | .infinity => True
  | .nan => True
  | .digits whole fraction ending =>
    whole.all digit = true ∧ fraction.all digit = true ∧ ending.Admits digit fraction

theorem isMantissa_iff {digit : Char → Bool} {chars : List Char} :
    IsMantissa digit chars ↔ ∃ whole fraction, IsRun digit whole ∧ fraction.all digit = true ∧
      chars = whole ++ pointed fraction := by
  constructor
  · rintro (run | ⟨run, fractional⟩)
    · exact ⟨_, [], run, rfl, (List.append_nil _).symm⟩
    · exact ⟨_, _, run, fractional.digits, by rw [pointed_of_ne_nil fractional.nonempty]⟩
  · rintro ⟨whole, fraction, run, fractional, rfl⟩
    by_cases none : fraction = []
    · rw [none, pointed, List.append_nil]
      exact .whole run
    · rw [pointed_of_ne_nil none]
      exact .fraction run ⟨none, fractional⟩

section

variable {digit : Char → Bool} {chars : List Char}

/-- A numeral of a class of digits spells a body of these digits. -/
theorem IsNumeral.exists_body (known : ∀ c, digit c = true → isDecimalDigit c = true)
    (numeral : IsNumeral digit chars) : ∃ body : Body, body.Spells chars ∧ body.Admits digit := by
  have decimal {chars : List Char} (all : chars.all digit = true) :
      chars.all isDecimalDigit = true :=
    List.all_eq_true.2 fun c member => known c (List.all_eq_true.1 all c member)
  cases numeral with
  | mantissa digits =>
    obtain ⟨whole, fraction, run, fractional, rfl⟩ := isMantissa_iff.1 digits
    have spells := Body.Spells.digits (run.mono known) (decimal fractional) .none
    rw [List.append_nil] at spells
    exact ⟨_, spells, run.digits, fractional, trivial⟩
  | @point whole run =>
    exact ⟨.digits whole [] .point, .digits (run.mono known) rfl .point, run.digits, rfl, rfl⟩
  | power digits marked power =>
    obtain ⟨whole, fraction, run, fractional, rfl⟩ := isMantissa_iff.1 digits
    obtain ⟨sign, exponent, optional, rfl, places⟩ := power
    have spells := Body.Spells.digits (run.mono known) (decimal fractional)
      (.power marked optional (places.mono known))
    rw [← List.append_assoc] at spells
    exact ⟨_, spells, run.digits, fractional, places.digits⟩
  | infinity => exact ⟨_, .infinity, trivial⟩
  | nan => exact ⟨_, .nan, trivial⟩

/-- A body of the digits of a class spells a numeral of this class. -/
theorem isNumeral_of_spells {body : Body} (spells : body.Spells chars)
    (admits : body.Admits digit) : IsNumeral digit chars := by
  cases spells with
  | infinity => exact .infinity
  | nan => exact .nan
  | @digits whole fraction behind ending run _ ends =>
    obtain ⟨digits, fractional, admitted⟩ := admits
    have mantissa : IsMantissa digit (whole ++ pointed fraction) :=
      isMantissa_iff.2 ⟨whole, fraction, ⟨run.nonempty, digits⟩, fractional, rfl⟩
    rw [← List.append_assoc]
    cases ends with
    | none => simpa using IsNumeral.mantissa mantissa
    | point =>
      obtain rfl : fraction = [] := admitted
      simpa [pointed] using IsNumeral.point ⟨run.nonempty, digits⟩
    | power marked optional places =>
      exact .power mantissa marked ⟨_, _, optional, rfl, places.nonempty, admitted⟩

/-- A text has the shape of a numeral exactly when a body spells it. -/
theorem isShaped_iff : IsShaped chars ↔ ∃ body : Body, body.Spells chars := by
  constructor
  · rintro (numeral | ⟨run, fractional⟩)
    · obtain ⟨body, spells, -⟩ := numeral.exists_body fun _ => id
      exact ⟨body, spells⟩
    · have spells := Body.Spells.digits run fractional.digits .point
      rw [pointed_of_ne_nil fractional.nonempty] at spells
      exact ⟨_, spells⟩
  · rintro ⟨body, spells⟩
    cases spells with
    | infinity => exact .numeral .infinity
    | nan => exact .numeral .nan
    | @digits whole fraction behind ending run fractional ends =>
      have numeral (admits : ending.Admits isDecimalDigit fraction) :
          IsShaped (whole ++ (pointed fraction ++ behind)) :=
        .numeral (isNumeral_of_spells (.digits run fractional ends) ⟨run.digits, fractional, admits⟩)
      cases ends with
      | none => exact numeral trivial
      | power marked optional places => exact numeral places.digits
      | point =>
        by_cases none : fraction = []
        · exact numeral none
        · rw [pointed_of_ne_nil none]
          exact .secondPoint run ⟨none, fractional⟩

end

/-! ## Values of shapes -/

/-- A shape has a value exactly when it is one of ASCII digits. -/
theorem exists_value_iff {s : Shape} : (∃ x, s.value? = some x) ↔ s.body.Admits Char.isDigit := by
  obtain ⟨negative, body⟩ := s
  cases body with
  | infinity => exact iff_of_true ⟨_, rfl⟩ trivial
  | nan => exact iff_of_true ⟨_, rfl⟩ trivial
  | digits whole fraction ending =>
    have accepted : ending.isAccepted fraction = true ↔ ending.Admits Char.isDigit fraction := by
      cases ending <;> simp [Ending.isAccepted, Ending.Admits]
    simp [Shape.value?, Body.Admits, ← accepted, and_assoc]

/-- Under a minus a body has the negated value. -/
theorem value?_minus {body : Body} {x : Float} (plain : (Shape.mk false body).value? = some x) :
    (Shape.mk true body).value? = some (-x) := by
  cases body with
  | infinity =>
    cases plain
    exact congrArg some (neg_ofMagnitude false le_rfl).symm
  | nan =>
    cases plain
    exact congrArg some (eq_nan_of_isNaN (by decide)).symm
  | digits whole fraction ending =>
    simp only [Shape.value?, Option.ite_none_right_eq_some, Option.some_inj] at plain ⊢
    obtain ⟨digits, rfl⟩ := plain
    exact ⟨digits, (neg_ofMagnitude false (Decimal.magnitude_le _)).symm⟩

/-! ## Texts that are read -/

theorem read_eq_ok_iff {text : String} {x : Float} :
    read text = .ok x ↔ ∃ s, shapeOf? text.toList = some s ∧ s.value? = some x := by
  rw [read]
  cases shapeOf? text.toList with
  | none => simp
  | some s => cases value : s.value? <;> simp [value]

/-- A refusal tells whether the text has a shape. -/
theorem read_eq_error_iff {text : String} {e : EvaluationError} :
    read text = .error e ↔
      shapeOf? text.toList = none ∧ e = .malformedNumeral text ∨
        ∃ s, shapeOf? text.toList = some s ∧ s.value? = none ∧ e = .refusedNumeral text := by
  rw [read]
  cases shapeOf? text.toList with
  | none => simp [eq_comm]
  | some s => cases value : s.value? <;> simp [value, eq_comm]

/-- The shapes of a text are those of a body behind a sign. -/
theorem exists_shape_iff {chars : List Char} :
    (∃ s, shapeOf? chars = some s) ↔ BehindSign IsShaped chars := by
  constructor
  · rintro ⟨s, shape⟩
    obtain ⟨optional, spells⟩ := shapeOf?_eq_some_iff.1 shape
    exact ⟨_, _, optional, rfl, isShaped_iff.2 ⟨_, spells⟩⟩
  · rintro ⟨sign, behind, optional, rfl, shaped⟩
    obtain ⟨body, spells⟩ := isShaped_iff.1 shaped
    exact ⟨_, shapeOf?_eq_some_iff.2 (.signed optional spells)⟩

/-- What reading a text comes to. -/
structure ReadsLanguage (text : String) : Prop where
  /-- Exactly the numerals of ASCII digits are read. -/
  accepted : (∃ x, read text = .ok x) ↔ BehindSign (IsNumeral Char.isDigit) text.toList
  /-- Every other text is refused under its own name, with a cause if it has a shape. -/
  refused : ∀ e, read text = .error e → e.kind = .numeral ∧
    e.message = s!"Failed to parse numeral: '{text}'" ∧
      (e.source?.isSome = true ↔ BehindSign IsShaped text.toList)
  /-- The long mark of a power of ten stands for the short one. -/
  marked : ∀ sign mantissa power, IsOptionalSign sign → IsMantissa Char.isDigit mantissa →
    BehindSign (IsRun Char.isDigit) power →
      text.toList = sign.toList ++ (mantissa ++ ("*10^".toList ++ power)) →
        ∃ x, read text = .ok x ∧
          read (String.ofList (sign.toList ++ (mantissa ++ ("e".toList ++ power)))) = .ok x
  /-- A plus in front of a numeral does not change its value. -/
  plus : IsNumeral Char.isDigit text.toList → ∀ x, read text = .ok x → read ("+" ++ text) = .ok x
  /-- A minus in front of a numeral negates its value. -/
  minus : IsNumeral Char.isDigit text.toList → ∀ x, read text = .ok x → read ("-" ++ text) = .ok (-x)
  /-- What is no number stays so behind a minus. -/
  nan : IsNumeral Char.isDigit text.toList → ∀ x, read text = .ok x → x.isNaN = true →
    read ("-" ++ text) = .ok x

/-- A numeral is read behind every sign. -/
theorem read_of_isNumeral {sign : Option Char} {chars : List Char} (optional : IsOptionalSign sign)
    (numeral : IsNumeral Char.isDigit chars) :
    ∃ body : Body, ∃ x, bodyOf? chars = some body ∧
      (Shape.mk (negates sign) body).value? = some x ∧
        read (String.ofList (sign.toList ++ chars)) = .ok x := by
  obtain ⟨body, spells, admits⟩ := numeral.exists_body fun _ => isDecimalDigit_of_isDigit
  obtain ⟨x, value⟩ := exists_value_iff (s := ⟨negates sign, body⟩).2 admits
  have shape := shapeOf?_eq_some_iff.2 (.signed optional spells)
  exact ⟨body, x, bodyOf?_eq_some_iff.2 spells, value, read_of_shape shape value⟩

theorem exists_read_iff {text : String} :
    (∃ x, read text = .ok x) ↔ BehindSign (IsNumeral Char.isDigit) text.toList := by
  constructor
  · rintro ⟨x, ok⟩
    obtain ⟨s, shape, value⟩ := read_eq_ok_iff.1 ok
    have admits := exists_value_iff.1 ⟨x, value⟩
    rw [shapeOf?_eq_some_iff] at shape
    generalize text.toList = chars at shape ⊢
    obtain ⟨optional, spells⟩ := shape
    exact ⟨_, _, optional, rfl, isNumeral_of_spells spells admits⟩
  · rintro ⟨sign, behind, optional, split, numeral⟩
    obtain ⟨body, x, -, -, ok⟩ := read_of_isNumeral optional numeral
    rw [← split, String.ofList_toList] at ok
    exact ⟨x, ok⟩

/-- Every mark of a power of ten leaves the same shape. -/
theorem exists_shape_of_power {sign : Option Char} {mantissa power : List Char}
    (optional : IsOptionalSign sign) (digits : IsMantissa Char.isDigit mantissa)
    (scale : BehindSign (IsRun Char.isDigit) power) :
    ∃ s : Shape, ∃ x, s.value? = some x ∧ ∀ mark ∈ marks,
      shapeOf? (sign.toList ++ (mantissa ++ (mark ++ power))) = some s := by
  obtain ⟨whole, fraction, run, fractional, rfl⟩ := isMantissa_iff.1 digits
  obtain ⟨exponentSign, exponent, exponentOptional, rfl, places⟩ := scale
  have admits : (Body.digits whole fraction (.power (negates exponentSign) exponent)).Admits
      Char.isDigit := ⟨run.digits, fractional, places.digits⟩
  obtain ⟨x, value⟩ := exists_value_iff (s := ⟨negates sign, _⟩).2 admits
  refine ⟨_, x, value, fun mark marked => shapeOf?_eq_some_iff.2 ?_⟩
  rw [List.append_assoc]
  exact .signed optional (.digits (run.mono fun _ => isDecimalDigit_of_isDigit)
    (all_isDecimalDigit fractional)
    (.power marked exponentOptional (places.mono fun _ => isDecimalDigit_of_isDigit)))

/-- A sign in front of a numeral is that of its value. -/
theorem read_signed {text : String} {x : Float} (numeral : IsNumeral Char.isDigit text.toList)
    (ok : read text = .ok x) : read ("+" ++ text) = .ok x ∧ read ("-" ++ text) = .ok (-x) := by
  have signed (sign : Char) :
      String.ofList ((some sign).toList ++ text.toList) = String.singleton sign ++ text := by
    rw [← String.toList_inj]
    simp
  have plus : IsOptionalSign (some '+') := isOptionalSign_some rfl
  have minus : IsOptionalSign (some '-') := isOptionalSign_some rfl
  obtain ⟨body, y, found, plain, bare⟩ := read_of_isNumeral isOptionalSign_none numeral
  rw [Option.toList_none, List.nil_append, String.ofList_toList, ok] at bare
  cases bare
  have spells := bodyOf?_eq_some_iff.1 found
  have positive := read_of_shape (shapeOf?_eq_some_iff.2 (.signed plus spells)) plain
  have negative := read_of_shape (shapeOf?_eq_some_iff.2 (.signed minus spells)) (value?_minus plain)
  rw [signed] at positive negative
  exact ⟨positive, negative⟩

/-- The reader accepts exactly its language, tells why it refuses, and takes the value from the
    digits under the sign. -/
theorem readsLanguage (text : String) : ReadsLanguage text where
  accepted := exists_read_iff
  refused e failed := by
    rw [← exists_shape_iff]
    rcases read_eq_error_iff.1 failed with ⟨none, rfl⟩ | ⟨s, shape, -, rfl⟩
    · refine ⟨rfl, rfl, iff_of_false Bool.false_ne_true ?_⟩
      rintro ⟨s, shape⟩
      cases none.symm.trans shape
    · exact ⟨rfl, rfl, iff_of_true rfl ⟨s, shape⟩⟩
  marked sign mantissa power optional digits run split := by
    obtain ⟨s, x, value, shape⟩ := exists_shape_of_power optional digits run
    have long := read_of_shape (shape "*10^".toList (by simp [marks])) value
    rw [← split, String.ofList_toList] at long
    exact ⟨x, long, read_of_shape (shape "e".toList (by simp [marks])) value⟩
  plus numeral x ok := (read_signed numeral ok).1
  minus numeral x ok := (read_signed numeral ok).2
  nan numeral x ok none := by
    have same : -x = x := eq_nan_of_isNaN none ▸ eq_nan_of_isNaN (by decide)
    exact same ▸ (read_signed numeral ok).2

-- A point behind a fraction leaves the shape of a numeral, and two points in a row do not.
example : read "1.5." = .error (.refusedNumeral "1.5.") := rfl
example : read "1..5" = .error (.malformedNumeral "1..5") := rfl

end Calculator.Numeral
