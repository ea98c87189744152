import Calculator.Proofs.Evaluation.Written

/-!
# Nothing else is read

Whatever a text is, either a tree of a level is read from it or the rule of the
level comes to no value there, under any answers. The step takes factors of a text
from the polynomials of all shorter texts; chains are taken from their operands.
-/
namespace Calculator.Grammar
open Unread

variable {v : Vocabulary}

/-- The text is decided at a level: a tree that stands there is read from it, or the
    rule of the level is barren. -/
def Decided (v : Vocabulary) (level : Level) (text : List Char) : Prop :=
  (∃ t left, Tree.Over v t level ∧ t.Reads v text left) ∨
    ∀ c : Cursor, skip c.ahead = skip text → Reader.Barren (rule v level c)

/-! ## Chains -/

/-- The operators behind an operand are decided, if the operands of the tier are. -/
theorem links_decided {tier : Tier} {bound : Nat}
    (operands : ∀ text : List Char, text.length ≤ bound → Decided v tier.operands text)
    (text : List Char) (short : text.length ≤ bound) :
    (∃ links left, Links.Over v links tier ∧ links.Reads v tier text left) ∨
      ∀ (x : Float) (c : Cursor), skip c.ahead = skip text →
        Reader.Barren (chainRest v tier x c) := by
  cases found : v.operatorAt? tier text with
  | none => exact .inl ⟨.nil, text, trivial, found, rfl⟩
  | some taken =>
    obtain ⟨name, op, behind⟩ := taken
    obtain ⟨listed, nonempty, accepted, -⟩ := of_first?_eq_some found
    have forward := accept?_length_lt accepted nonempty
    -- The rule takes the operator and goes on behind it, wherever it starts.
    have goesOn : ∀ (x : Float) (c : Cursor), skip c.ahead = skip text →
        ∃ d le, d.ahead = behind ∧ chainRest v tier x c = Reader.since c le
          ((rule v tier.operands d).andThen fun y e _ =>
            .ask c.place (.operator name op x y) fun z => chainRest v tier z e) := by
      intro x c same
      rw [← operatorAt?_congr same] at found
      obtain ⟨d, le, unread, eq⟩ := chainRest_of_some x found
      exact ⟨d, le, unread, by rw [eq, operand_eq_rule]⟩
    rcases operands behind (by omega) with ⟨right, between, stands, reads⟩ | barren
    · have shorter := (reads.writes right).length_le
      rcases links_decided operands between (by omega) with ⟨rest, left, others, follow⟩ | barren
      · exact .inl ⟨.cons name op right rest, left, ⟨listed, stands, others⟩,
          behind, between, found, reads, follow⟩
      · refine .inr fun x c same => ?_
        obtain ⟨d, le, unread, eq⟩ := goesOn x c same
        rw [eq]
        have right := reads.follows right stands (c := d) (congrArg skip unread)
        refine (right.barren_andThen fun y e _ reached => ?_).since le
        exact .ask _ _ fun z => barren z e reached
    · refine .inr fun x c same => ?_
      obtain ⟨d, le, unread, eq⟩ := goesOn x c same
      rw [eq]
      exact ((barren d (congrArg skip unread)).andThen).since le
termination_by text.length

theorem chain_decided (tier : Tier) {bound : Nat}
    (operands : ∀ text : List Char, text.length ≤ bound → Decided v tier.operands text)
    (text : List Char) (short : text.length ≤ bound) : Decided v (.chain tier) text := by
  rcases operands text short with ⟨first, between, stands, reads⟩ | barren
  · have shorter := (reads.writes first).length_le
    rcases links_decided operands between (by omega) with ⟨rest, left, others, follow⟩ | barren
    · exact .inl ⟨.chain tier first rest, left, ⟨rfl, stands, others⟩, between, reads, follow⟩
    · refine .inr fun c same => ?_
      rw [rule, chain, operand_eq_rule]
      exact (reads.follows first stands same).barren_andThen fun x d _ reached =>
        barren x d reached
  · refine .inr fun c same => ?_
    rw [rule, chain, operand_eq_rule]
    exact (barren c same).andThen

/-! ## Arguments -/

/-- What follows an argument is decided: further arguments are read up to the closing
    parenthesis, or none can be. -/
def FurtherDecided (v : Vocabulary) (text : List Char) : Prop :=
  (∃ others left, Arguments.Over v others ∧ others.Continue v text left) ∨
    ∀ (x : Float) (c : Cursor), skip c.ahead = skip text → Reader.Barren (furtherArguments v x c)

theorem argumentList_of_barren {c : Cursor} (barren : Reader.Barren (chain v .polynomial c)) :
    Reader.Barren (argumentList v c) := by
  rw [argumentList]
  split
  · exact .failure
  · exact barren.andThen

/-- A list of arguments is decided, if its first one and what follows that are. -/
theorem list_decided {text : List Char} (polynomial : Decided v (.chain .polynomial) text)
    (further : ∀ between : List Char, between.length ≤ text.length → FurtherDecided v between) :
    (∃ first others between left, Tree.Over v first (.chain .polynomial) ∧
      Arguments.Over v others ∧ first.Reads v text between ∧ others.Continue v between left) ∨
      ∀ c : Cursor, skip c.ahead = skip text → Reader.Barren (argumentList v c) := by
  rcases polynomial with ⟨first, between, stands, reads⟩ | barren
  · rcases further between (reads.writes first).length_le with
      ⟨others, left, othersOver, follow⟩ | barren
    · exact .inl ⟨first, others, between, left, stands, othersOver, reads, follow⟩
    · refine .inr fun c same => ?_
      rw [argumentList_of_nonblank (same ▸ reads.nonblank)]
      exact (reads.follows first stands same).barren_andThen fun x d _ reached =>
        barren x d reached
  · exact .inr fun c same => argumentList_of_barren (barren c same)

theorem further_decided {bound : Nat}
    (polynomials : ∀ text : List Char, text.length < bound → Decided v (.chain .polynomial) text)
    (text : List Char) (short : text.length ≤ bound) : FurtherDecided v text := by
  by_cases close : ∃ behind, skip text = ')' :: behind
  · obtain ⟨behind, ahead⟩ := close
    exact .inl ⟨.nil, behind, trivial, ahead⟩
  · by_cases comma : ∃ behind, skip text = ',' :: behind
    · obtain ⟨behind, ahead⟩ := comma
      have shorter : behind.length < text.length := by
        have le := skip_length_le text
        rwa [ahead, List.length_cons] at le
      have others := list_decided (polynomials behind (by omega)) fun between shorter' =>
        further_decided polynomials between (by omega)
      rcases others with ⟨first, rest, between, left, stands, restOver, reads, follow⟩ | barren
      · exact .inl ⟨.cons first rest, left, ⟨stands, restOver⟩,
          behind, between, ahead, reads, follow⟩
      · refine .inr fun x c same => ?_
        obtain ⟨d, le, unread, eq⟩ := furtherArguments_of_comma (v := v) x (same.trans ahead)
        rw [eq]
        exact ((barren d (congrArg skip unread)).andThen).since le
    · rw [not_exists] at close comma
      exact .inr fun x c same => furtherArguments_of_other x (same ▸ comma) (same ▸ close)
termination_by text.length

/-- The arguments of a call are decided, if all shorter polynomials are. -/
theorem arguments_decided (opened : List Char)
    (polynomials : ∀ text : List Char, text.length ≤ opened.length →
      Decided v (.chain .polynomial) text) :
    (∃ arguments left, Arguments.Over v arguments ∧ arguments.Reads v opened left) ∨
      ∀ c : Cursor, skip c.ahead = '(' :: opened → Reader.Barren (arguments v c) := by
  by_cases close : ∃ behind, skip opened = ')' :: behind
  · obtain ⟨behind, ahead⟩ := close
    exact .inl ⟨.nil, behind, trivial, ahead⟩
  · rw [not_exists] at close
    have list := list_decided (polynomials opened le_rfl) fun between short =>
      further_decided (fun text shorter => polynomials text shorter.le) between short
    rcases list with ⟨first, others, between, left, stands, othersOver, reads, follow⟩ | barren
    · exact .inl ⟨.cons first others, left, ⟨stands, othersOver⟩, close, between, reads, follow⟩
    · refine .inr fun c begins => ?_
      obtain ⟨d, le, unread, eq⟩ := arguments_of_list (v := v) begins close
      rw [eq]
      exact (barren d (by rw [unread, skip_skip])).since le

/-! ## Factors -/

section

variable {sign : Option Char} {text named : List Char}

/-- A factor fails on all texts where its number fails behind the sign. -/
theorem factor_barren (signed : Signed sign text named)
    (barren : ∀ d : Cursor, d.ahead = named → Reader.Barren (numberAfter v sign d)) (c : Cursor)
    (same : skip c.ahead = skip text) : Reader.Barren (rule v .factor c) := by
  obtain ⟨d, le, unread, eq⟩ := factor_of_signed (v := v) signed same
  rw [rule, eq]
  exact (barren d unread).since le

theorem call_decided {name : String} {f : Function} {behind : List Char}
    (signed : Signed sign text named) (optional : IsOptionalSign sign)
    (polynomials : ∀ other : List Char, other.length < text.length →
      Decided v (.chain .polynomial) other)
    (found : v.functionAt? named = some (name, f, behind)) : Decided v .factor text := by
  obtain ⟨listed, nonempty, accepted, opens⟩ := of_first?_eq_some found
  obtain ⟨opened, parenthesis⟩ := opensParenthesis_iff.1 opens
  have le := signed.writes.length_le
  have shorter := accept?_length_lt accepted nonempty
  have opening := skip_length_le behind
  rw [parenthesis, List.length_cons] at opening
  rcases arguments_decided opened fun other short => polynomials other (by omega) with
    ⟨arguments, left, stands, reads⟩ | barren
  · exact .inl ⟨.call sign name f arguments, left, ⟨rfl, optional, listed, stands⟩,
      named, behind, opened, signed, found, parenthesis, reads⟩
  · refine .inr (factor_barren signed fun d unread => ?_)
    rw [← unread] at found
    obtain ⟨e, le, unread', eq⟩ := numberAfter_of_function sign found
    rw [eq]
    exact ((barren e (by rw [unread', parenthesis])).andThen).since le

theorem signed_decided {s : Char} (signed : Signed (some s) text named)
    (isSign : Character.isSign s = true) (polynomial : Decided v (.chain .polynomial) named)
    (function : v.functionAt? named = none) (constant : v.constantAt? named = none)
    (group : Unread.startsGroup named = true) : Decided v .factor text := by
  rcases polynomial with ⟨inner, left, stands, reads⟩ | barren
  · exact .inl ⟨.signed s inner, left, ⟨rfl, isSign, reads.leads group, stands⟩,
      named, signed, function, constant, group, reads⟩
  · refine .inr (factor_barren signed fun d unread => ?_)
    rw [← unread] at function constant group
    rw [numberAfter_of_group function constant group]
    exact (barren d (congrArg skip unread)).andThen

theorem numeral_decided (signed : Signed sign text named) (optional : IsOptionalSign sign)
    (function : v.functionAt? named = none) (constant : v.constantAt? named = none)
    (noGroup : sign.isSome = true → Unread.startsGroup named = false) :
    Decided v .factor text := by
  rcases digits_exhaustive optional named with ⟨ds, left, plain, ends, split⟩ | refused
  · exact .inl ⟨.numeral sign ds, left, ⟨rfl, optional, plain⟩,
      named, signed, function, constant, split, ends⟩
  · refine .inr (factor_barren signed fun d unread => ?_)
    obtain ⟨written, refusal | refusal⟩ := refused d unread
    all_goals
      rw [← unread] at function constant noGroup
      rw [numberAfter_of_digits function constant noGroup]
      exact .of_error refusal

/-- A number behind its sign is decided, if all shorter polynomials are. -/
theorem number_decided (signed : Signed sign text named) (optional : IsOptionalSign sign)
    (polynomials : ∀ other : List Char, other.length < text.length →
      Decided v (.chain .polynomial) other) : Decided v .factor text := by
  cases function : v.functionAt? named with
  | some taken => exact call_decided signed optional polynomials function
  | none =>
    cases constant : v.constantAt? named with
    | some taken =>
      obtain ⟨name, value, left⟩ := taken
      obtain ⟨listed, -⟩ := of_first?_eq_some constant
      exact .inl ⟨.constant sign name value, left, ⟨rfl, optional, listed⟩,
        named, signed, function, constant⟩
    | none =>
      by_cases group : sign.isSome = true ∧ Unread.startsGroup named = true
      · obtain ⟨isSome, group⟩ := group
        obtain ⟨s, rfl⟩ := Option.isSome_iff_exists.1 isSome
        exact signed_decided signed (optional s rfl) (polynomials named signed.length_lt) function
          constant group
      · refine numeral_decided signed optional function constant fun isSome => ?_
        simpa using fun starts => group ⟨isSome, starts⟩

end

theorem factor_decided {bound : Nat}
    (polynomials : ∀ text : List Char, text.length < bound → Decided v (.chain .polynomial) text)
    (text : List Char) (short : text.length ≤ bound) : Decided v .factor text := by
  cases ahead : skip text with
  | nil => exact .inr fun c same => factor_of_end (same.trans ahead)
  | cons found rest =>
    have opening := skip_length_le text
    rw [ahead, List.length_cons] at opening
    by_cases parenthesis : found = '('
    · subst parenthesis
      have barrenGroup : (∀ d : Cursor, d.ahead = rest →
          Reader.Barren ((chain v .polynomial d).andThen fun x e _ =>
            .settled (closeGroup x e).1 (closeGroup x e).2 (closeGroup_ahead_le x e))) →
          Decided v .factor text := by
        refine fun barren => .inr fun c same => ?_
        obtain ⟨d, le, unread, eq⟩ := factor_of_open (v := v) (same.trans ahead)
        rw [rule, eq]
        exact (barren d unread).since le
      rcases polynomials rest (by omega) with ⟨inner, closed, stands, reads⟩ | barren
      · by_cases close : ∃ left, skip closed = ')' :: left
        · obtain ⟨left, closing⟩ := close
          exact .inl ⟨.group inner, left, ⟨rfl, stands⟩, rest, closed, ahead, reads, closing⟩
        · rw [not_exists] at close
          refine barrenGroup fun d unread => ?_
          have follows := reads.follows inner stands (c := d) (congrArg skip unread)
          refine follows.barren_andThen fun x e _ reached => ?_
          obtain ⟨failure, refusal⟩ := closeGroup_of_other x (reached ▸ close)
          exact .of_error refusal
      · exact barrenGroup fun d unread => (barren d (congrArg skip unread)).andThen
    · obtain ⟨sign, named, signed, optional⟩ := exists_signed ahead parenthesis
      exact number_decided signed optional fun other shorter => polynomials other (by omega)

/-! ## All levels -/

/-- Every text is decided at every level. -/
theorem decided (v : Vocabulary) (level : Level) (text : List Char) : Decided v level text := by
  have factors : ∀ other : List Char, other.length ≤ text.length → Decided v .factor other := by
    intro other short
    refine factor_decided (fun shorter less => ?_) other le_rfl
    exact decided v (.chain .polynomial) shorter
  have factorChains := fun other short => chain_decided .factor factors other short
  have monomials := fun other short => chain_decided .monomial factorChains other short
  match level with
  | .factor => exact factors text le_rfl
  | .chain .factor => exact factorChains text le_rfl
  | .chain .monomial => exact monomials text le_rfl
  | .chain .polynomial => exact chain_decided .polynomial monomials text le_rfl
termination_by text.length

end Calculator.Grammar
