import Calculator.Proofs.Numeral.Digits

/-!
# Derivations

How a tree is read from a text: every decision that the rules take on the way,
with the text that each part leaves unread. A rule that begins where a tree is read
follows the value of the tree, call by call.
-/
namespace Calculator
open Unread

/-- What is unread behind the optional sign of a number. Without a sign the number
    begins neither with one nor with an opening parenthesis. -/
def Unread.Signed : Option Char → List Char → List Char → Prop
  | none, text, named =>
    named = skip text ∧ ∃ c rest, skip text = c :: rest ∧ c ≠ '(' ∧ Character.isSign c = false
  | some sign, text, named =>
    Character.isSign sign = true ∧ ∃ rest, skip text = sign :: rest ∧ named = skip rest

/-- A number begins somewhere. -/
theorem Unread.Signed.nonblank {sign : Option Char} {text named : List Char}
    (signed : Signed sign text named) : skip text ≠ [] := by
  cases sign with
  | none =>
    obtain ⟨-, c, rest, begins, -⟩ := signed
    rw [begins]
    exact List.cons_ne_nil _ _
  | some sign =>
    obtain ⟨-, rest, begins, -⟩ := signed
    rw [begins]
    exact List.cons_ne_nil _ _

mutual

/-- Whether a tree is read from a text with the rest of it left unread. -/
def Tree.Reads (v : Vocabulary) : Tree → List Char → List Char → Prop
  | .chain tier first rest, text, left =>
    ∃ between, first.Reads v text between ∧ rest.Reads v tier between left
  | .group inner, text, left =>
    ∃ opened closed, skip text = '(' :: opened ∧ inner.Reads v opened closed ∧
      skip closed = ')' :: left
  | .call sign name f arguments, text, left =>
    ∃ named behind opened, Signed sign text named ∧
      v.functionAt? named = some (name, f, behind) ∧ skip behind = '(' :: opened ∧
      arguments.Reads v opened left
  | .constant sign name value, text, left =>
    ∃ named, Signed sign text named ∧ v.functionAt? named = none ∧
      v.constantAt? named = some (name, value, left)
  | .numeral sign ds, text, left =>
    ∃ named, Signed sign text named ∧ v.functionAt? named = none ∧ v.constantAt? named = none ∧
      named = ds ++ left ∧ Grammar.EndsNumber left
  | .signed sign inner, text, left =>
    ∃ named, Signed (some sign) text named ∧ v.functionAt? named = none ∧
      v.constantAt? named = none ∧ startsGroup named = true ∧ inner.Reads v named left

/-- Whether operators of a tier and their right operands are read up to a text that
    goes on with no operator of the tier. -/
def Links.Reads (v : Vocabulary) : Links → Tier → List Char → List Char → Prop
  | .nil, tier, text, left => v.operatorAt? tier text = none ∧ left = text
  | .cons name op right rest, tier, text, left =>
    ∃ behind between, v.operatorAt? tier text = some (name, op, behind) ∧
      right.Reads v behind between ∧ rest.Reads v tier between left

/-- Whether arguments are read from behind their opening parenthesis. -/
def Arguments.Reads (v : Vocabulary) : Arguments → List Char → List Char → Prop
  | .nil, text, left => skip text = ')' :: left
  | .cons first rest, text, left =>
    (∀ behind, skip text ≠ ')' :: behind) ∧
      ∃ between, first.Reads v text between ∧ rest.Continue v between left

/-- Whether further arguments are read from behind one, up to the closing parenthesis. -/
def Arguments.Continue (v : Vocabulary) : Arguments → List Char → List Char → Prop
  | .nil, text, left => skip text = ')' :: left
  | .cons first rest, text, left =>
    ∃ behind between, skip text = ',' :: behind ∧ first.Reads v behind between ∧
      rest.Continue v between left

end

namespace Grammar

/-- The rule for what stands at a level. -/
def rule (v : Vocabulary) : Level → (c : Cursor) → Reader Float c
  | .chain tier, c => chain v tier c
  | .factor, c => factor v c

variable {v : Vocabulary} {c : Cursor}

theorem operand_eq_rule (tier : Tier) (c : Cursor) :
    operand v tier c = rule v tier.operands c := by
  cases tier <;> rw [operand] <;> rfl

/-- A number begins with a sign or without one. -/
theorem exists_signed {text rest : List Char} {found : Char} (ahead : skip text = found :: rest)
    (other : found ≠ '(') : ∃ sign named, Signed sign text named ∧ IsOptionalSign sign := by
  by_cases isSign : Character.isSign found = true
  · refine ⟨some found, skip rest, ⟨isSign, rest, ahead, rfl⟩, ?_⟩
    intro c same
    cases same
    exact isSign
  · exact ⟨none, skip text, ⟨rfl, found, rest, ahead, other, by simpa using isSign⟩, nofun⟩

/-- Where a number begins, the rule of factors goes on behind its sign. -/
theorem factor_of_signed {sign : Option Char} {text named : List Char}
    (signed : Signed sign text named) (same : skip c.ahead = skip text) :
    ∃ d le, d.ahead = named ∧ factor v c = Reader.since c le (numberAfter v sign d) := by
  cases sign with
  | none =>
    obtain ⟨rfl, found, rest, ahead, other, unsigned⟩ := signed
    obtain ⟨d, le, unread, eq⟩ := factor_of_other (v := v) (same.trans ahead) other
    refine ⟨d, le, unread.trans ahead.symm, ?_⟩
    rw [eq, number_of_other]
    intro first others begins
    rw [unread, skip_cons (isIgnored_of_skip_eq_cons ahead)] at begins
    cases begins
    exact unsigned
  | some sign =>
    obtain ⟨isSign, rest, ahead, rfl⟩ := signed
    have other : sign ≠ '(' := by
      rcases (Character.isSign_iff sign).1 isSign with rfl | rfl <;> decide
    obtain ⟨d, le, unread, eq⟩ := factor_of_other (v := v) (same.trans ahead) other
    have begins : skip d.ahead = sign :: rest := by
      rw [unread, skip_cons (isIgnored_of_skip_eq_cons ahead)]
    obtain ⟨e, le', behind, eq'⟩ := number_of_sign (v := v) begins isSign
    exact ⟨e, le'.trans le, behind, by rw [eq, eq', Reader.since_since]⟩

theorem operatorAt?_congr {text other : List Char} (same : skip text = skip other) (tier : Tier) :
    v.operatorAt? tier text = v.operatorAt? tier other :=
  first?_congr same _ _

/-! ## The rules follow the value of what they read -/

variable {left : List Char}

theorem follows_group {opened closed : List Char} {q : Interaction EvaluationResult}
    (ahead : skip c.ahead = '(' :: opened) (close : skip closed = ')' :: left)
    (inner : ∀ d, skip d.ahead = skip opened → Reader.Follows closed (chain v .polynomial d) q) :
    Reader.Follows left (factor v c) q := by
  obtain ⟨d, le, unread, eq⟩ := factor_of_open (v := v) ahead
  rw [eq, ← Reader.onward_done q]
  refine ((inner d (congrArg skip unread)).andThen fun x e _ reached => ?_).since le
  obtain ⟨result, behind⟩ := closeGroup_of_close x (reached.trans close)
  rw [result]
  exact .settled (by rw [behind, skip_skip])

theorem follows_call {sign : Option Char} {text named behind opened : List Char} {name : String}
    {f : Function} {q : Interaction (Except EvaluationError (List Float))}
    (signed : Signed sign text named) (found : v.functionAt? named = some (name, f, behind))
    (open_ : skip behind = '(' :: opened) (same : skip c.ahead = skip text)
    (inner : ∀ d, skip d.ahead = '(' :: opened → Reader.Follows left (arguments v d) q) :
    Reader.Follows left (factor v c) (q.onward fun xs =>
      .ask (.function name f xs) fun x =>
        .done ((Numeral.Draft.ofSign sign).pushValue x).read) := by
  obtain ⟨d, le, unread, eq⟩ := factor_of_signed (v := v) signed same
  rw [← unread] at found
  obtain ⟨e, le', unread', eq'⟩ := numberAfter_of_function sign found
  rw [eq, eq']
  have begins : skip e.ahead = '(' :: opened := by rw [unread']; exact open_
  refine (((inner e begins).andThen fun xs g _ reached => ?_).since le').since le
  exact .ask _ _ fun x => .settled reached

theorem follows_constant {sign : Option Char} {text named : List Char} {name : String}
    {value : Float} (signed : Signed sign text named) (noFunction : v.functionAt? named = none)
    (found : v.constantAt? named = some (name, value, left)) (same : skip c.ahead = skip text) :
    Reader.Follows left (factor v c)
      (.done ((Numeral.Draft.ofSign sign).pushValue value).read) := by
  obtain ⟨d, le, unread, eq⟩ := factor_of_signed (v := v) signed same
  rw [← unread] at noFunction found
  obtain ⟨e, le', unread', eq'⟩ := numberAfter_of_constant sign noFunction found
  rw [eq, eq']
  exact (Reader.Follows.settled (by rw [unread'])).since le

theorem follows_numeral {sign : Option Char} {text named ds : List Char}
    (signed : Signed sign text named) (noFunction : v.functionAt? named = none)
    (noConstant : v.constantAt? named = none) (plain : IsPlainNumeral ds)
    (split : named = ds ++ left) (ends : EndsNumber left) (same : skip c.ahead = skip text) :
    Reader.Follows left (factor v c)
      (.done (Numeral.read (String.ofList (sign.toList ++ ds)))) := by
  obtain ⟨d, le, unread, eq⟩ := factor_of_signed (v := v) signed same
  have noGroup : sign.isSome = true → Unread.startsGroup d.ahead = false := fun _ => by
    rw [unread, split]
    exact startsGroup_of_plain plain left
  rw [← unread] at noFunction noConstant split
  obtain ⟨result, behind⟩ := digits_of_plain plain ends split sign
  rw [eq, numberAfter_of_digits noFunction noConstant noGroup, ← result]
  exact (Reader.Follows.settled (congrArg skip behind)).since le

theorem follows_signed {sign : Char} {text named : List Char} {q : Interaction EvaluationResult}
    (signed : Signed (some sign) text named) (noFunction : v.functionAt? named = none)
    (noConstant : v.constantAt? named = none) (group : Unread.startsGroup named = true)
    (same : skip c.ahead = skip text)
    (inner : ∀ d, skip d.ahead = skip named → Reader.Follows left (chain v .polynomial d) q) :
    Reader.Follows left (factor v c) (q.onward fun x =>
      .done ((Numeral.Draft.ofSign (some sign)).applySign x).read) := by
  obtain ⟨d, le, unread, eq⟩ := factor_of_signed (v := v) signed same
  rw [← unread] at noFunction noConstant group
  rw [eq, numberAfter_of_group noFunction noConstant group]
  refine ((inner d (congrArg skip unread)).andThen fun x e _ reached => ?_).since le
  exact .settled reached

end Grammar

/-- A tree is read from something. -/
theorem Tree.Reads.nonblank {v : Vocabulary} {t : Tree} {text left : List Char}
    (reads : t.Reads v text left) : skip text ≠ [] := by
  match t with
  | .chain _ first _ =>
    obtain ⟨between, firstReads, -⟩ := reads
    exact firstReads.nonblank
  | .group _ =>
    obtain ⟨opened, closed, ahead, -⟩ := reads
    rw [ahead]
    exact List.cons_ne_nil _ _
  | .call _ _ _ _ =>
    obtain ⟨named, behind, opened, signed, -⟩ := reads
    exact signed.nonblank
  | .constant _ _ _ | .numeral _ _ | .signed _ _ =>
    obtain ⟨named, signed, -⟩ := reads
    exact signed.nonblank

mutual

/-- The rule of a level follows the value of a tree that is read there. -/
theorem Tree.Reads.follows {v : Vocabulary} (t : Tree) {level : Level} {text left : List Char}
    (stands : t.Over v level) (reads : t.Reads v text left) {c : Cursor}
    (same : skip c.ahead = skip text) : Reader.Follows left (Grammar.rule v level c) t.value := by
  match t with
  | .chain tier first rest =>
    obtain ⟨rfl, firstOver, restOver⟩ := stands
    obtain ⟨between, firstReads, restReads⟩ := reads
    rw [Grammar.rule, Grammar.chain, Grammar.operand_eq_rule, Tree.value]
    exact (Tree.Reads.follows first firstOver firstReads same).andThen fun x d _ reached =>
      Links.Reads.follows rest restOver restReads x reached
  | .group inner =>
    obtain ⟨rfl, innerOver⟩ := stands
    obtain ⟨opened, closed, ahead, innerReads, close⟩ := reads
    rw [Tree.value]
    exact Grammar.follows_group (same.trans ahead) close fun d begins =>
      Tree.Reads.follows inner innerOver innerReads begins
  | .call sign name f arguments =>
    obtain ⟨rfl, -, -, argumentsOver⟩ := stands
    obtain ⟨named, behind, opened, signed, found, open_, argumentsReads⟩ := reads
    rw [Tree.value]
    exact Grammar.follows_call signed found open_ same fun d begins =>
      Arguments.Reads.follows arguments argumentsOver argumentsReads begins
  | .constant sign name value =>
    obtain ⟨rfl, -⟩ := stands
    obtain ⟨named, signed, noFunction, found⟩ := reads
    rw [Tree.value]
    exact Grammar.follows_constant signed noFunction found same
  | .numeral sign ds =>
    obtain ⟨rfl, -, plain⟩ := stands
    obtain ⟨named, signed, noFunction, noConstant, split, ends⟩ := reads
    rw [Tree.value]
    exact Grammar.follows_numeral signed noFunction noConstant plain split ends same
  | .signed sign inner =>
    obtain ⟨rfl, -, -, innerOver⟩ := stands
    obtain ⟨named, signed, noFunction, noConstant, group, innerReads⟩ := reads
    rw [Tree.value]
    exact Grammar.follows_signed signed noFunction noConstant group same fun d begins =>
      Tree.Reads.follows inner innerOver innerReads begins

/-- The operators behind a value follow its links. -/
theorem Links.Reads.follows {v : Vocabulary} (links : Links) {tier : Tier} {text left : List Char}
    (stands : links.Over v tier) (reads : links.Reads v tier text left) (x : Float) {c : Cursor}
    (same : skip c.ahead = skip text) :
    Reader.Follows left (Grammar.chainRest v tier x c) (links.value x) := by
  match links with
  | .nil =>
    obtain ⟨none, rfl⟩ := reads
    rw [← Grammar.operatorAt?_congr same] at none
    rw [Grammar.chainRest_of_none x none, Links.value]
    exact .value same
  | .cons name op right rest =>
    obtain ⟨-, rightOver, restOver⟩ := stands
    obtain ⟨behind, between, found, rightReads, restReads⟩ := reads
    rw [← Grammar.operatorAt?_congr same] at found
    obtain ⟨d, le, unread, eq⟩ := Grammar.chainRest_of_some x found
    rw [eq, Grammar.operand_eq_rule, Links.value]
    refine ((Tree.Reads.follows right rightOver rightReads (congrArg skip unread)).andThen
      fun y e _ reached => ?_).since le
    exact .ask _ _ fun z => Links.Reads.follows rest restOver restReads z reached

/-- The arguments in parentheses follow their values. -/
theorem Arguments.Reads.follows {v : Vocabulary} (arguments : Arguments) {opened left : List Char}
    (stands : arguments.Over v) (reads : arguments.Reads v opened left) {c : Cursor}
    (begins : skip c.ahead = '(' :: opened) :
    Reader.Follows left (Grammar.arguments v c) arguments.values := by
  match arguments with
  | .nil =>
    obtain ⟨d, le, unread, eq⟩ := Grammar.arguments_of_empty (v := v) begins reads
    rw [eq, Arguments.values]
    exact .value (by rw [unread, skip_skip])
  | .cons first rest =>
    obtain ⟨more, between, firstReads, restReads⟩ := reads
    obtain ⟨d, le, unread, eq⟩ := Grammar.arguments_of_list (v := v) begins more
    rw [eq]
    refine (Arguments.Continue.follows rest stands.2 restReads firstReads.nonblank ?_
      (by rw [unread, skip_skip])).since le
    exact fun f same => Tree.Reads.follows first stands.1 firstReads same

/-- The argument in front of others and the others follow their values. -/
theorem Arguments.Continue.follows {v : Vocabulary} (others : Arguments)
    {text between left : List Char} {q : Interaction EvaluationResult}
    (stands : others.Over v) (reads : others.Continue v between left)
    (nonblank : skip text ≠ [])
    (first : ∀ d : Cursor, skip d.ahead = skip text →
      Reader.Follows between (Grammar.chain v .polynomial d) q)
    {c : Cursor} (same : skip c.ahead = skip text) :
    Reader.Follows left (Grammar.argumentList v c)
      (q.onward fun x => others.values.onward fun xs => .done (.ok (x :: xs))) := by
  rw [Grammar.argumentList_of_nonblank (same ▸ nonblank)]
  refine (first c same).andThen fun x d _ reached => ?_
  match others with
  | .nil =>
    rw [Arguments.Continue] at reads
    obtain ⟨e, le, unread, eq⟩ := Grammar.furtherArguments_of_close (v := v) x (reached.trans reads)
    rw [eq]
    exact .value (by rw [unread, skip_skip])
  | .cons second rest =>
    obtain ⟨behind, middle, comma, secondReads, restReads⟩ := reads
    obtain ⟨e, le, unread, eq⟩ := Grammar.furtherArguments_of_comma (v := v) x (reached.trans comma)
    rw [eq, Arguments.values]
    refine Reader.Follows.since (Reader.Follows.andThen (Arguments.Continue.follows rest stands.2
      restReads secondReads.nonblank (fun f begins => Tree.Reads.follows second stands.1 secondReads
      begins) (congrArg skip unread)) fun xs f _ settled => ?_) le
    exact .value settled

end

end Calculator
