import Calculator.Proofs.Evaluation.Precedence
import Calculator.Proofs.Numeral.PendingSign

/-!
# Signs in front of groups

A sign in front of a parenthesis does not end with the group: what it is applied to is
the whole polynomial that begins there, with every operator behind the group.
-/
namespace Calculator
open Unread

variable {sign : Char} {v : Vocabulary}

/-- Exact value of a sign in front of a polynomial, whoever answers. -/
theorem Tree.evaluate_signed {m : Type → Type} [Monad m] [LawfulMonad m]
    (answer : Call → m CallResult) (isSign : Character.isSign sign = true) (t : Tree) :
    (Tree.lone (.signed sign t)).evaluate answer =
      Except.map (Numeral.signed sign) <$> t.evaluate answer := by
  rw [Tree.evaluate, Tree.value_lone, Tree.value, Interaction.onward, Interaction.run_bind,
    ← Tree.evaluate, ← bind_pure_comp]
  refine bind_congr fun result => ?_
  cases result with
  | error e => rfl
  | ok x => exact congrArg pure (Numeral.Draft.applySign_read isSign x)

/-! ## Factors that stand alone -/

theorem Tree.Over.lone {factor : Tree} (stands : factor.Over v .factor) :
    factor.lone.Over v (.chain .polynomial) :=
  ⟨rfl, ⟨rfl, ⟨rfl, stands, trivial⟩, trivial⟩, trivial⟩

theorem Tree.Reads.lone {factor : Tree} {text left : List Char} (reads : factor.Reads v text left)
    (ended : skip left = []) : factor.lone.Reads v text left := by
  have stops : ∀ tier, v.operatorAt? tier left = none := fun _ => first?_eq_none_of_end ended _
  exact ⟨left, ⟨left, ⟨left, reads, stops _, rfl⟩, stops _, rfl⟩, stops _, rfl⟩

/-! ## Behind a sign -/

/-- No declared name comes next where a parenthesis opens. -/
theorem first?_eq_none_of_open {α : Type} {table : Table α} (wellFormed : table.WellFormed)
    (fits : List Char → Bool) (behind : List Char) :
    first? fits ('(' :: behind) table.entries = none := by
  refine first?_eq_none_of_head (p := (· ≠ '(')) ?_ ?_
  · intro entry listed
    have nonempty : entry.1.toList ≠ [] := by simpa using (wellFormed.2 entry listed).1
    obtain ⟨c, rest, begins⟩ := List.exists_cons_of_ne_nil nonempty
    have free := wellFormed.free (by decide : Character.isReserved '(' = true) entry listed
    rw [begins, List.mem_cons, not_or] at free
    simp [begins, Ne.symm free.1]
  · rw [skip_cons (by decide)]
    rfl

/-- Behind a sign and a gap, a polynomial that begins with a sign or a parenthesis is read
    whole. -/
theorem Tree.Reads.signed (isSign : Character.isSign sign = true) {gap text left : List Char}
    (ignored : gap.all Character.isIgnored = true) (group : startsGroup text = true)
    (begins : skip text = text) (noFunction : v.functionAt? text = none)
    (noConstant : v.constantAt? text = none) {t : Tree} (stands : t.Over v (.chain .polynomial))
    (reads : t.Reads v text left) (ended : skip left = []) :
    (Tree.lone (.signed sign t)).Over v (.chain .polynomial) ∧
      (Tree.lone (.signed sign t)).Reads v (sign :: (gap ++ text)) left := by
  have kept : Character.isIgnored sign = false := by
    rcases (Character.isSign_iff sign).1 isSign with rfl | rfl <;> decide
  have behind : Signed (some sign) (sign :: (gap ++ text)) text :=
    ⟨isSign, _, skip_cons kept _, by rw [skip_gap ignored, begins]⟩
  have factor : Tree.Over v (.signed sign t) .factor := ⟨rfl, isSign, reads.leads group, stands⟩
  exact ⟨Tree.Over.lone factor,
    Tree.Reads.lone ⟨_, behind, noFunction, noConstant, group, reads⟩ ended⟩

/-- A sign in front of groups with operators between them is applied to the value of the
    whole flat list. -/
theorem Join.evaluate_signed_text (wellFormed : v.WellFormed) (answers : Call → CallResult)
    (isSign : Character.isSign sign = true) {first : String} {x : Float}
    (joins : List (Join (String × Float)))
    (value : Grammar.evaluate (m := Id) answers v first = .ok x)
    (valued : ∀ j ∈ joins, Grammar.evaluate (m := Id) answers v j.operand.1 = .ok j.operand.2)
    (fits : ∀ j ∈ joins, Fits v j) :
    Grammar.evaluate (m := Id) answers v
        (String.singleton sign ++ text first (joins.map (map Prod.fst))) =
      (reduce answers (.ok x) (joins.map (map fun operand => .ok operand.2))).map
        (Numeral.signed sign) := by
  obtain ⟨t, stands, reads, same⟩ := exists_tree wellFormed answers joins value valued fits
  rw [text_toList] at reads
  have group : startsGroup ('(' :: (first.toList ++ ')' :: (texts (joins.map (map Prod.fst))).toList)) =
      true := by
    rw [startsGroup, skip_cons (by decide)]
    simp
  have noGap : ([] : List Char).all Character.isIgnored = true := rfl
  obtain ⟨signedStands, signedReads⟩ := reads.signed isSign noGap group
    (skip_cons (by decide) _) (first?_eq_none_of_open wellFormed.functions _ _)
    (first?_eq_none_of_open wellFormed.constants _ _) stands rfl
  have written : (String.singleton sign ++ text first (joins.map (map Prod.fst))).toList =
      sign :: '(' :: (first.toList ++ ')' :: (texts (joins.map (map Prod.fst))).toList) := by
    rw [String.toList_append, text_toList]
    simp
  rw [List.nil_append, ← written] at signedReads
  rw [Grammar.evaluate_of_reads (m := Id) answers signedStands signedReads rfl,
    Tree.evaluate_signed (m := Id) answers isSign, same]
  rfl

end Calculator
