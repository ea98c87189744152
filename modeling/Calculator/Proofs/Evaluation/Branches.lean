import Calculator.Proofs.Evaluation.Activation

/-!
# The rules branch by branch

One equation for each branch of the rules that look at single characters, by what the
position itself gives: the character that is taken, or the literal that is accepted.
-/
namespace Calculator.Grammar

variable {v : Vocabulary} {c d : Cursor}

/-! ## Characters that are taken -/

/-- A character that is taken is the first behind the ignored ones. -/
theorem skip_of_next {found : Char} (next : c.next true = (.ok found, d)) :
    Unread.skip c.ahead = found :: d.ahead := by
  cases ahead : Unread.skip c.ahead with
  | nil => cases (next_of_skip_nil ahead).symm.trans next
  | cons first rest =>
    obtain ⟨passed, taken⟩ := next_of_skip_cons ahead
    cases taken.symm.trans next
    rfl

/-- Moving back over it ends behind the ignored characters. -/
theorem retreat_of_next {found : Char} (next : c.next true = (.ok found, d)) :
    d.retreat = c.skipIgnored := by
  unfold Cursor.next at next
  dsimp only at next
  rw [if_pos rfl] at next
  split at next
  · cases next
  · rename_i first rest ahead
    cases next
    exact congrArg (Cursor.mk c.skipIgnored.passed) ahead.symm

/-! ## Factors -/

theorem factor_of_error {e : EvaluationError} (ended : c.next true = (.error e, d)) :
    factor v c = .failure e d (Cursor.within_of_next ended).forward := by
  rw [factor]
  split
  · rename_i taken
    cases ended.symm.trans taken
    rfl
  · rename_i taken
    cases ended.symm.trans taken

theorem factor_of_group (opened : c.next true = (.ok '(', d)) :
    factor v c = Reader.since c (Cursor.within_of_next opened).forward
      ((chain v .polynomial d).andThen fun x e _ =>
        .settled (closeGroup x e).1 (closeGroup x e).2 (closeGroup_ahead_le x e)) := by
  rw [factor]
  split
  · rename_i taken
    cases opened.symm.trans taken
  · rename_i taken
    cases opened.symm.trans taken
    rfl

theorem factor_of_number {first : Char} (found : c.next true = (.ok first, d))
    (other : first ≠ '(') :
    factor v c = Reader.since c (Cursor.retreat_ahead_le found) (number v d.retreat) := by
  rw [factor]
  split
  · rename_i taken
    cases found.symm.trans taken
  · rename_i taken
    cases found.symm.trans taken
    rw [if_neg other]

/-! ## Arguments -/

theorem arguments_of_missing (missed : c.accept? "(" = none) :
    arguments v c = .failure .missingParentheses c (Nat.le_refl _) := by
  rw [arguments]
  split
  · rfl
  · rename_i found
    cases missed.symm.trans found

theorem arguments_of_closed {e : Cursor} (opened : c.accept? "(" = some d)
    (closed : d.accept? ")" = some e) :
    arguments v c = .value [] e
      ((Cursor.accept?_ahead_le closed).trans (Cursor.accept?_ahead_le opened)) := by
  rw [arguments]
  split
  · rename_i missed
    cases opened.symm.trans missed
  · rename_i found
    cases opened.symm.trans found
    split
    · rename_i shut
      cases closed.symm.trans shut
      rfl
    · rename_i missed
      cases closed.symm.trans missed

theorem arguments_of_more (opened : c.accept? "(" = some d) (more : d.accept? ")" = none) :
    arguments v c = Reader.since c (Cursor.accept?_ahead_le opened) (argumentList v d) := by
  rw [arguments]
  split
  · rename_i missed
    cases opened.symm.trans missed
  · rename_i found
    cases opened.symm.trans found
    split
    · rename_i shut
      cases more.symm.trans shut
    · rfl

theorem argumentList_of_over (ended : c.isOver = true) :
    argumentList v c = .failure .unclosedArguments c (Nat.le_refl _) := by
  rw [argumentList, if_pos ended]

/-! ## Behind an argument -/

theorem furtherArguments_of_error {x : Float} {e : EvaluationError}
    (failed : separator c = (.error e, d)) :
    furtherArguments v x c = .failure e d (failed_ahead_le failed) := by
  rw [furtherArguments]
  split
  · rename_i other
    cases failed.symm.trans other
    rfl
  · rename_i other
    cases failed.symm.trans other
  · rename_i other
    cases failed.symm.trans other

theorem furtherArguments_of_last {x : Float} (closed : separator c = (.ok false, d)) :
    furtherArguments v x c = .value [x] d (closed_ahead_le closed) := by
  rw [furtherArguments]
  split
  · rename_i other
    cases closed.symm.trans other
  · rename_i other
    cases closed.symm.trans other
    rfl
  · rename_i other
    cases closed.symm.trans other

theorem furtherArguments_of_more {x : Float} (comma : separator c = (.ok true, d)) :
    furtherArguments v x c = Reader.since c (continued_ahead_le comma)
      ((argumentList v d).andThen fun xs e _ => .value (x :: xs) e (kept_ahead_le e)) := by
  rw [furtherArguments]
  split
  · rename_i other
    cases comma.symm.trans other
  · rename_i other
    cases comma.symm.trans other
  · rename_i other
    cases comma.symm.trans other
    rfl

/-! ## Expressions -/

theorem expression_of_over {text : String} (empty : text.toList = []) :
    expression v (.ofString text) = .failure .emptyExpression (.ofString text) (Nat.le_refl _) := by
  have atStart : ¬ (Cursor.ofString text).location ≠ 0 := not_not_intro rfl
  have ended : (Cursor.ofString text).isOver = true := List.isEmpty_iff.2 empty
  rw [expression, if_neg atStart, if_pos ended]

end Calculator.Grammar
