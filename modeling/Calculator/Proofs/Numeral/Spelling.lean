import Calculator.Evaluation.Tree
import Mathlib

/-!
# Spelled numerals

Each part of a numeral spells a text of its own: a run of digits, a fraction behind its
point, an ending, a sign in front. A text is taken apart into a shape exactly when the shape
spells it, so no text has two shapes.
-/
namespace Calculator.Numeral

/-! ## Runs of digits -/

/-- A run of digits of a class, at least one. -/
structure IsRun (digit : Char → Bool) (chars : List Char) : Prop where
  nonempty : chars ≠ []
  digits : chars.all digit = true

/-- Whether a text does not go on with a digit of any script. -/
def EndsRun (behind : List Char) : Prop := ∀ c ∈ behind.head?, isDecimalDigit c = false

theorem IsRun.mono {digit other : Char → Bool} (wider : ∀ c, digit c = true → other c = true)
    {chars : List Char} (run : IsRun digit chars) : IsRun other chars :=
  ⟨run.nonempty, List.all_eq_true.2 fun c member => wider c (List.all_eq_true.1 run.digits c member)⟩

theorem endsRun_nil : EndsRun [] := by
  intro c first
  cases first

theorem endsRun_cons {c : Char} (other : isDecimalDigit c = false) (rest : List Char) :
    EndsRun (c :: rest) := by
  rintro _ ⟨⟩
  exact other

/-- A character of a class differs from every other one. -/
theorem ne_of_class {p : Char → Bool} {c d : Char} (member : p c = true) (other : p d = false) :
    c ≠ d := by
  rintro rfl
  cases member.symm.trans other

/-- Digits are split off up to a text that begins with none. -/
theorem splitDigits_append {digits behind : List Char} (run : digits.all isDecimalDigit = true)
    (ends : EndsRun behind) : splitDigits (digits ++ behind) = (digits, behind) := by
  have kept := List.all_eq_true.1 run
  rw [splitDigits, List.takeWhile_append_of_pos kept, List.dropWhile_append_of_pos kept]
  cases behind with
  | nil => simp
  | cons c rest => simp [ends c rfl]

/-- Behind the longest run of a class no character of it follows. -/
theorem stops_dropWhile (p : Char → Bool) (chars : List Char) :
    ∀ c ∈ (chars.dropWhile p).head?, p c = false := by
  intro c head
  have stopped := List.head?_dropWhile_not p chars
  rw [head] at stopped
  simpa using stopped

/-- What is split off are digits, and none follows them. -/
theorem exists_digits_of_splitDigits (chars : List Char) :
    ∃ digits behind, splitDigits chars = (digits, behind) ∧ chars = digits ++ behind ∧
      digits.all isDecimalDigit = true ∧ EndsRun behind :=
  ⟨_, _, rfl, List.takeWhile_append_dropWhile.symm, List.all_takeWhile, stops_dropWhile _ chars⟩

/-! ## Signs -/

theorem isOptionalSign_none : IsOptionalSign none := by
  intro sign present
  cases present

theorem isOptionalSign_some {sign : Char} (isSign : Character.isSign sign = true) :
    IsOptionalSign (some sign) := by
  rintro _ ⟨⟩
  exact isSign

/-- Whether a sign stands for the negation of what follows it. -/
def negates (sign : Option Char) : Bool := sign == some '-'

/-- Whether a text does not begin with a sign. -/
def IsUnsignedText (chars : List Char) : Prop := ∀ c ∈ chars.head?, Character.isSign c = false

/-- A text without a sign in front is left whole. -/
theorem splitSign_of_unsigned {chars : List Char} (unsigned : IsUnsignedText chars) :
    splitSign chars = (false, chars) := by
  cases chars with
  | nil => rfl
  | cons c rest =>
    have other : ¬ (c = '+' ∨ c = '-') := by
      rw [← Character.isSign_iff, unsigned c rfl]
      decide
    rw [splitSign]
    · rintro _ ⟨⟩
      exact other (.inr rfl)
    · rintro _ ⟨⟩
      exact other (.inl rfl)

theorem splitSign_append {sign : Option Char} (optional : IsOptionalSign sign) {chars : List Char}
    (unsigned : IsUnsignedText chars) : splitSign (sign.toList ++ chars) = (negates sign, chars) := by
  cases sign with
  | none => exact splitSign_of_unsigned unsigned
  | some sign =>
    rcases (Character.isSign_iff sign).1 (optional sign rfl) with rfl | rfl
    · rfl
    · rfl

/-- What is split off is a sign or nothing. -/
theorem exists_sign_of_splitSign (chars : List Char) :
    ∃ sign behind, splitSign chars = (negates sign, behind) ∧ IsOptionalSign sign ∧
      chars = sign.toList ++ behind := by
  rcases chars with - | ⟨c, rest⟩
  · exact ⟨none, [], rfl, isOptionalSign_none, rfl⟩
  · by_cases minus : c = '-'
    · subst minus
      exact ⟨some '-', rest, rfl, isOptionalSign_some rfl, rfl⟩
    · by_cases plus : c = '+'
      · subst plus
        exact ⟨some '+', rest, rfl, isOptionalSign_some rfl, rfl⟩
      · refine ⟨none, c :: rest, splitSign_of_unsigned ?_, isOptionalSign_none, rfl⟩
        rintro _ ⟨⟩
        rw [← Bool.not_eq_true, Character.isSign_iff]
        exact not_or.2 ⟨plus, minus⟩

theorem isUnsignedText_of_run {chars : List Char} (run : IsRun isDecimalDigit chars)
    (behind : List Char) : IsUnsignedText (chars ++ behind) := by
  obtain ⟨c, rest, rfl⟩ := List.exists_cons_of_ne_nil run.nonempty
  have digit := List.all_eq_true.1 run.digits c List.mem_cons_self
  rintro _ ⟨⟩
  rw [← Bool.not_eq_true, Character.isSign_iff]
  exact not_or.2 ⟨ne_of_class digit (by decide), ne_of_class digit (by decide)⟩

/-! ## Endings -/

/-- The marks of a power of ten. -/
def marks : List (List Char) := [['e'], ['E'], ['*', '1', '0', '^']]

/-- The texts that an ending spells. -/
inductive Ending.Spells : Ending → List Char → Prop where
  | none : Ending.Spells .none []
  | point : Ending.Spells .point ['.']
  | power {mark digits : List Char} {sign : Option Char} (marked : mark ∈ marks)
      (optional : IsOptionalSign sign) (run : IsRun isDecimalDigit digits) :
      Ending.Spells (.power (negates sign) digits) (mark ++ (sign.toList ++ digits))

theorem powerOf?_append {sign : Option Char} (optional : IsOptionalSign sign) {digits : List Char}
    (run : IsRun isDecimalDigit digits) :
    powerOf? (sign.toList ++ digits) = some (.power (negates sign) digits) := by
  have unsigned := isUnsignedText_of_run run []
  have split := splitDigits_append run.digits endsRun_nil
  rw [List.append_nil] at unsigned split
  simp [powerOf?, splitSign_append optional unsigned, split, run.nonempty]

/-- A power of ten is a sign and a run of digits. -/
theorem exists_run_of_powerOf? {chars : List Char} {ending : Ending}
    (power : powerOf? chars = some ending) :
    ∃ sign digits, IsOptionalSign sign ∧ IsRun isDecimalDigit digits ∧
      chars = sign.toList ++ digits ∧ ending = .power (negates sign) digits := by
  obtain ⟨sign, rest, signed, optional, rfl⟩ := exists_sign_of_splitSign chars
  obtain ⟨digits, left, split, rfl, run, -⟩ := exists_digits_of_splitDigits rest
  rw [powerOf?, signed] at power
  simp only [split] at power
  by_cases refused : digits = [] ∨ left ≠ []
  · rw [if_pos refused] at power
    cases power
  · rw [if_neg refused, Option.some_inj] at power
    obtain ⟨nonempty, none⟩ := not_or.1 refused
    obtain rfl : left = [] := not_not.1 none
    exact ⟨sign, digits, optional, ⟨nonempty, run⟩, by rw [List.append_nil], power.symm⟩

/-- Every mark is followed by a power of ten, and by nothing else. -/
theorem endingOf?_mark {mark : List Char} (marked : mark ∈ marks) (rest : List Char) :
    endingOf? (mark ++ rest) = powerOf? rest := by
  simp only [marks, List.mem_cons, List.not_mem_nil, or_false] at marked
  rcases marked with rfl | rfl | rfl
  · rfl
  · rfl
  · rfl

theorem spells_of_powerOf? {mark rest : List Char} {ending : Ending} (marked : mark ∈ marks)
    (power : powerOf? rest = some ending) : ending.Spells (mark ++ rest) := by
  obtain ⟨sign, digits, optional, run, rfl, rfl⟩ := exists_run_of_powerOf? power
  exact .power marked optional run

theorem endingOf?_eq_some_iff {chars : List Char} {ending : Ending} :
    endingOf? chars = some ending ↔ ending.Spells chars := by
  have short : ['e'] ∈ marks := by simp [marks]
  have capital : ['E'] ∈ marks := by simp [marks]
  have long : ['*', '1', '0', '^'] ∈ marks := by simp [marks]
  constructor
  · intro found
    unfold endingOf? at found
    split at found
    · cases found
      exact .none
    · cases found
      exact .point
    · exact spells_of_powerOf? short found
    · exact spells_of_powerOf? capital found
    · exact spells_of_powerOf? long found
    · cases found
  · rintro (_ | _ | ⟨marked, optional, run⟩)
    · rfl
    · rfl
    · rw [endingOf?_mark marked, powerOf?_append optional run]

theorem Ending.Spells.endsRun {ending : Ending} {chars : List Char} (spells : ending.Spells chars) :
    EndsRun chars := by
  cases spells with
  | none => exact endsRun_nil
  | point => exact endsRun_cons (by decide) _
  | power marked =>
    simp only [marks, List.mem_cons, List.not_mem_nil, or_false] at marked
    rcases marked with rfl | rfl | rfl
    · exact endsRun_cons (by decide) _
    · exact endsRun_cons (by decide) _
    · exact endsRun_cons (by decide) _

/-! ## Fractions -/

/-- A fraction behind its point; without digits there is no point. -/
def pointed : List Char → List Char
  | [] => []
  | c :: rest => '.' :: c :: rest

theorem pointed_of_ne_nil {fraction : List Char} (some : fraction ≠ []) :
    pointed fraction = '.' :: fraction := by
  obtain ⟨c, rest, rfl⟩ := List.exists_cons_of_ne_nil some
  rfl

/-- A point that digits follow begins a fraction. -/
theorem splitFraction_append {fraction behind : List Char}
    (run : fraction.all isDecimalDigit = true) {ending : Ending} (spells : ending.Spells behind) :
    splitFraction (pointed fraction ++ behind) = (fraction, behind) := by
  cases fraction with
  | nil =>
    rcases spells with _ | _ | ⟨marked, _, _⟩
    · rfl
    · rfl
    · simp only [marks, List.mem_cons, List.not_mem_nil, or_false] at marked
      rcases marked with rfl | rfl | rfl
      · rfl
      · rfl
      · rfl
  | cons c rest =>
    have split : splitDigits (c :: (rest ++ behind)) = (c :: rest, behind) :=
      splitDigits_append run spells.endsRun
    simp [pointed, splitFraction, split]

theorem exists_fraction_of_splitFraction (chars : List Char) :
    ∃ fraction behind, splitFraction chars = (fraction, behind) ∧
      chars = pointed fraction ++ behind ∧ fraction.all isDecimalDigit = true := by
  unfold splitFraction
  split
  · next rest =>
    obtain ⟨digits, left, split, rfl, run, -⟩ := exists_digits_of_splitDigits rest
    simp only [split]
    by_cases none : digits = []
    · exact ⟨[], '.' :: (digits ++ left), if_pos none, rfl, rfl⟩
    · exact ⟨digits, left, if_neg none, by rw [pointed_of_ne_nil none]; rfl, run⟩
  · exact ⟨[], chars, rfl, rfl, rfl⟩

/-! ## Bodies and shapes -/

/-- The texts that a numeral behind its sign spells. -/
inductive Body.Spells : Body → List Char → Prop where
  | infinity : Body.Spells .infinity ['I', 'n', 'f', 'i', 'n', 'i', 't', 'y']
  | nan : Body.Spells .nan ['N', 'a', 'N']
  | digits {whole fraction behind : List Char} {ending : Ending} (run : IsRun isDecimalDigit whole)
      (fractional : fraction.all isDecimalDigit = true) (ends : ending.Spells behind) :
      Body.Spells (.digits whole fraction ending) (whole ++ (pointed fraction ++ behind))

/-- The texts that a shape spells. -/
inductive Shape.Spells : Shape → List Char → Prop where
  | signed {sign : Option Char} {body : Body} {chars : List Char} (optional : IsOptionalSign sign)
      (spells : body.Spells chars) : Shape.Spells ⟨negates sign, body⟩ (sign.toList ++ chars)

theorem Body.Spells.isUnsignedText {body : Body} {chars : List Char} (spells : body.Spells chars) :
    IsUnsignedText chars := by
  cases spells with
  | infinity =>
    rintro _ ⟨⟩
    rfl
  | nan =>
    rintro _ ⟨⟩
    rfl
  | digits run => exact isUnsignedText_of_run run _

/-- A run of digits is neither of the words. -/
theorem bodyOf?_run {whole behind : List Char} (run : IsRun isDecimalDigit whole)
    (ends : EndsRun behind) :
    bodyOf? (whole ++ behind) =
      (endingOf? (splitFraction behind).2).map (.digits whole (splitFraction behind).1) := by
  have split := splitDigits_append run.digits ends
  have nonempty := run.nonempty
  obtain ⟨c, rest, rfl⟩ := List.exists_cons_of_ne_nil nonempty
  have digit := List.all_eq_true.1 run.digits c List.mem_cons_self
  have noInfinity : ¬ (c :: rest ++ behind) = ['I', 'n', 'f', 'i', 'n', 'i', 't', 'y'] :=
    fun same => ne_of_class digit (by decide) (List.cons.inj same).1
  have noNaN : ¬ (c :: rest ++ behind) = ['N', 'a', 'N'] :=
    fun same => ne_of_class digit (by decide) (List.cons.inj same).1
  rw [bodyOf?, if_neg noInfinity, if_neg noNaN, split]
  rfl

theorem endsRun_pointed {fraction behind : List Char} (ends : EndsRun behind) :
    EndsRun (pointed fraction ++ behind) := by
  cases fraction with
  | nil => exact ends
  | cons c rest => exact endsRun_cons (by decide) _

theorem bodyOf?_eq_some_iff {chars : List Char} {body : Body} :
    bodyOf? chars = some body ↔ body.Spells chars := by
  constructor
  · intro found
    rw [bodyOf?] at found
    split at found
    · next word =>
      cases found
      exact word ▸ .infinity
    · split at found
      · next word =>
        cases found
        exact word ▸ .nan
      · obtain ⟨whole, rest, split, rfl, run, -⟩ := exists_digits_of_splitDigits chars
        obtain ⟨fraction, behind, divided, rfl, fractional⟩ := exists_fraction_of_splitFraction rest
        simp only [split, divided] at found
        split at found
        · cases found
        · next nonempty =>
          obtain ⟨ending, ends, rfl⟩ := Option.map_eq_some_iff.1 found
          exact .digits ⟨nonempty, run⟩ fractional (endingOf?_eq_some_iff.1 ends)
  · rintro (_ | _ | ⟨run, fractional, ends⟩)
    · rfl
    · rfl
    · rw [bodyOf?_run run (endsRun_pointed ends.endsRun), splitFraction_append fractional ends,
        endingOf?_eq_some_iff.2 ends]
      rfl

/-- A text has exactly the shape that spells it. -/
theorem shapeOf?_eq_some_iff {chars : List Char} {shape : Shape} :
    shapeOf? chars = some shape ↔ shape.Spells chars := by
  constructor
  · intro found
    obtain ⟨sign, behind, split, optional, rfl⟩ := exists_sign_of_splitSign chars
    rw [shapeOf?, split] at found
    obtain ⟨body, spells, rfl⟩ := Option.map_eq_some_iff.1 found
    exact .signed optional (bodyOf?_eq_some_iff.1 spells)
  · rintro ⟨optional, spells⟩
    rw [shapeOf?, splitSign_append optional spells.isUnsignedText]
    exact Option.map_eq_some_iff.2 ⟨_, bodyOf?_eq_some_iff.2 spells, rfl⟩

end Calculator.Numeral
