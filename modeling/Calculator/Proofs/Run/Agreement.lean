import Calculator.Proofs.Run.Machine

/-!
# Two runs side by side

Two runs agree when both return, with the same answer, and leave machines that are
related again. From machines between which no step can tell, callables and the
evaluations of an expression agree if the evaluations that they start do.
-/
namespace Calculator

namespace Run

variable {α β : Type} {related : Machine → Machine → Prop} {m n : Machine}

/-- Both runs return with the same answer and leave machines that are related. -/
def Agree (related : Machine → Machine → Prop) (r s : Run α) (m n : Machine) : Prop :=
  ∃ answer m' n', r m = some (answer, m') ∧ s n = some (answer, n') ∧ related m' n'

theorem agree_pure (holds : related m n) (answer : α) :
    Agree related (pure answer) (pure answer) m n := ⟨answer, m, n, rfl, rfl, holds⟩

theorem Agree.bind {between : Machine → Machine → Prop} {r s : Run α} {f g : α → Run β}
    (first : Agree between r s m n)
    (next : ∀ answer m' n', between m' n' → Agree related (f answer) (g answer) m' n') :
    Agree related (r >>= f) (s >>= g) m n := by
  obtain ⟨answer, m', n', left, right, holds⟩ := first
  obtain ⟨last, m'', n'', leftNext, rightNext, after⟩ := next answer m' n' holds
  refine ⟨last, m'', n'', ?_, ?_, after⟩
  · change (r m).bind (fun p => f p.1 p.2) = _
    rw [left]
    exact leftNext
  · change (s n).bind (fun p => g p.1 p.2) = _
    rw [right]
    exact rightNext

theorem map_eq {r : Run α} {answer : α} (f : α → β) (ran : r m = some (answer, n)) :
    (f <$> r) m = some (f answer, n) := by
  change (r m).bind (fun p => some (f p.1, p.2)) = _
  rw [ran]
  rfl

theorem Agree.map {r s : Run α} (agree : Agree related r s m n) (f : α → β) :
    Agree related (f <$> r) (f <$> s) m n := by
  obtain ⟨answer, m', n', left, right, holds⟩ := agree
  exact ⟨f answer, m', n', map_eq f left, map_eq f right, holds⟩

theorem agree_change {f : Machine → Machine} (holds : related (f m) (f n)) :
    Agree related (change f) (change f) m n := ⟨(), f m, f n, rfl, rfl, holds⟩

/-! ## Steps of agreeing runs -/

open Machine

variable {outer : List String} {before other : Machine} {name expression : String}
  {evaluate evaluate' : String → String → Run (Option EvaluationResult)}

theorem agree_note (bisimulation : Bisimulation related)
    (holds : Lockstep related outer before other m n) (severity : Severity) (category : String)
    (message : Unit → String) :
    Agree (Lockstep related outer before other) (note severity category message)
      (note severity category message) m n :=
  agree_change (holds.note bisimulation severity category message)

/-- Evaluations that are started while those of `active` are in progress agree. -/
def Agreeing (related : Machine → Machine → Prop) (active : List String)
    (evaluate evaluate' : String → String → Run (Option EvaluationResult)) : Prop :=
  ∀ name expression m n, related m n → m.active = active →
    Agree (Lockstep related active m n) (evaluate name expression) (evaluate' name expression) m n

theorem Agreeing.nested (agreeing : Agreeing related before.active evaluate evaluate')
    (fewer : outer ⊆ before.active) (name expression : String)
    (holds : Lockstep related outer before other m n) :
    Agree (Lockstep related outer before other) (evaluate name expression)
      (evaluate' name expression) m n := by
  obtain ⟨answer, m', n', left, right, kept⟩ :=
    agreeing name expression m n holds.related holds.left.active
  refine ⟨answer, m', n', left, right, kept.related, ?_, ?_⟩
  · exact holds.left.trans (kept.left.mono fewer)
  · exact holds.right.trans (kept.right.mono fewer)

/-- Callables run alike if the evaluations that they start do. -/
theorem agree_script (bisimulation : Bisimulation related)
    (agreeing : Agreeing related before.active evaluate evaluate') (fewer : outer ⊆ before.active)
    (s : Script) (holds : Lockstep related outer before other m n) :
    Agree (Lockstep related outer before other) (script evaluate s) (script evaluate' s) m n := by
  induction s generalizing m n with
  | finish result => exact agree_pure holds result
  | draw resume ih =>
    have drawn : Agree (Lockstep related outer before other) (modifyGet Machine.draw)
        (modifyGet Machine.draw) m n := by
      refine ⟨m.draw.1, m.draw.2, n.draw.2, rfl, ?_, bisimulation.draw holds.related, ?_, ?_⟩
      · rw [bisimulation.drawn holds.related]
        rfl
      · exact holds.left.trans (keeps_draw m)
      · exact holds.right.trans (keeps_draw n)
    exact drawn.bind fun x m' n' after => ih x after
  | load cell resume ih =>
    -- Both load the same number, so what follows is the same script.
    have same := bisimulation.load holds.related cell
    obtain ⟨result, m', n', left, right, after⟩ := ih (m.load cell) holds
    rw [same] at right
    exact ⟨result, m', n', left, right, after⟩
  | store cell x resume ih =>
    have stored : Agree (Lockstep related outer before other) (change (·.store cell x))
        (change (·.store cell x)) m n := by
      refine agree_change ⟨bisimulation.store holds.related cell x, ?_, ?_⟩
      · exact holds.left.trans ⟨rfl, fun _ _ => rfl⟩
      · exact holds.right.trans ⟨rfl, fun _ _ => rfl⟩
    exact stored.bind fun _ m' n' after => ih after
  | evaluate name expression resume ih =>
    have answered := agreeing.nested fewer name expression holds
    exact answered.bind fun answer m' n' after => ih answer after

/-- Computations run alike if the calls that they wait for do. -/
theorem agree_run {shared : Machine → Machine → Prop} {answer answer' : Call → Site → Run CallResult}
    (answered : ∀ request site m n, shared m n →
      Agree shared (answer request site) (answer' request site) m n)
    (p : Interaction α) (holds : shared m n) :
    Agree shared (p.run answer) (p.run answer') m n := by
  induction p generalizing m n with
  | done result => exact agree_pure holds result
  | call request site resume ih =>
    exact (answered request site m n holds).bind fun reply m' n' after => ih reply after

/-- A call moves the innermost evaluation only. -/
theorem agree_answer (bisimulation : Bisimulation related)
    (progress : before.active = name :: outer) (free : name ∉ outer)
    (agreeing : Agreeing related before.active evaluate evaluate') (request : Call) (site : Site)
    (holds : Lockstep related outer before other m n) :
    Agree (Lockstep related outer before other) (answer evaluate request site)
      (answer evaluate' request site) m n := by
  have inside : m.active = name :: outer := holds.left.active.trans progress
  have inside' : n.active = name :: outer := (bisimulation.active holds.related).symm.trans inside
  have moved : Agree (Lockstep related outer before other) (change (·.moveTo site.cursor))
      (change (·.moveTo site.cursor)) m n := by
    refine agree_change ⟨bisimulation.moveTo holds.related _, ?_, ?_⟩
    · exact holds.left.trans (keeps_moveTo inside free _)
    · exact holds.right.trans (keeps_moveTo inside' free _)
  refine moved.bind fun _ m' n' after => ?_
  refine (agree_note bisimulation after _ _ _).bind fun _ m'' n'' noted => ?_
  refine agree_script bisimulation agreeing ?_ request.script noted
  rw [progress]
  exact List.subset_cons_self _ _

/-! ## Evaluations -/

/-- An accepted evaluation up to what its expression came to. -/
def opened (evaluate : String → String → Run (Option EvaluationResult)) (name : String)
    (v : Vocabulary) (expression : String) : Run (Reading Float (.ofString expression)) := do
  change (·.enter name expression)
  change (·.noteEnter expression)
  (Grammar.expression v (.ofString expression)).run (answer evaluate)

/-- An accepted evaluation from what its expression came to. -/
def closed (settings : Settings) (raw : EvaluationResult) : Run EvaluationResult := do
  change (·.leave)
  change (·.noteExit fun _ => outcomeText raw)
  settle settings raw

theorem settle_eq (settings : Settings) (raw : EvaluationResult) (m : Machine) :
    settle settings raw m = some (settings.settle raw, m.settled settings raw) := by
  unfold settle Machine.settled
  cases raw with
  | ok x => rfl
  | error e =>
    by_cases silent : settings.isSilent = true
    · simp only [silent, if_true]
      rfl
    · simp only [silent]
      rfl

theorem reject_eq (settings : Settings) (expression : String) (m : Machine) :
    reject settings expression m =
      some (settings.settle (.error .reentrant), m.rejected settings expression) :=
  settle_eq settings (.error .reentrant) _

theorem closed_eq (settings : Settings) (raw : EvaluationResult) (m : Machine) :
    closed settings raw m = some (settings.settle raw, m.exited settings raw) :=
  settle_eq settings raw _

theorem accept_eq (evaluate : String → String → Run (Option EvaluationResult)) (name : String)
    (evaluator : Evaluator) (expression : String) :
    accept evaluate name evaluator expression =
      opened evaluate name evaluator.vocabulary expression >>= fun reading =>
        closed evaluator.settings reading.result := by
  simp only [accept, opened, closed, bind_assoc]

/-- Where vocabularies read an expression alike, so do their evaluations. Evaluations that
    are started on the way find one more in progress. -/
theorem agree_opened (bisimulation : Bisimulation related) (holds : related m n)
    (free : name ∉ m.active)
    (agreeing : Agreeing related (name :: m.active) evaluate evaluate')
    {v w : Vocabulary}
    (reads : Grammar.expression v (.ofString expression) =
      Grammar.expression w (.ofString expression)) :
    Agree (Lockstep related m.active (m.enter name expression) (n.enter name expression))
      (opened evaluate name v expression) (opened evaluate' name w expression) m n := by
  have entered : Agree (Lockstep related m.active (m.enter name expression)
      (n.enter name expression)) (change (·.enter name expression))
      (change (·.enter name expression)) m n :=
    agree_change ⟨bisimulation.enter holds _ _, .refl _ _, .refl _ _⟩
  refine entered.bind fun _ m' n' after => ?_
  refine (agree_note bisimulation after _ _ _).bind fun _ m'' n'' noted => ?_
  rw [reads]
  exact agree_run (fun request site k l inside =>
    agree_answer bisimulation rfl free agreeing request site inside) _ noted

theorem agree_closed (bisimulation : Bisimulation related) (holds : related m n)
    (free : name ∉ m.active) {k l : Machine}
    (inside : Lockstep related m.active (m.enter name expression) (n.enter name expression) k l)
    (settings : Settings) (raw : EvaluationResult) :
    Agree (Lockstep related m.active m n) (closed settings raw) (closed settings raw) k l := by
  have left : Lockstep related m.active m n k.leave l.leave := by
    refine ⟨bisimulation.leave inside.related, keeps_leave free inside.left, ?_⟩
    -- The other machine has the same in progress, since no step tells them apart.
    have right := inside.right
    rw [bisimulation.active holds] at free right ⊢
    exact keeps_leave free right
  refine ⟨_, _, _, closed_eq settings raw k, closed_eq settings raw l, ?_⟩
  exact (left.note bisimulation _ _ _).settled bisimulation settings raw

/-- Accepted evaluations agree if those that they start do. -/
theorem agree_accept (bisimulation : Bisimulation related) (holds : related m n)
    (free : name ∉ m.active)
    (agreeing : Agreeing related (name :: m.active) evaluate evaluate')
    {e f : Evaluator} (settings : e.settings = f.settings)
    (reads : Grammar.expression e.vocabulary (.ofString expression) =
      Grammar.expression f.vocabulary (.ofString expression)) :
    Agree (Lockstep related m.active m n) (accept evaluate name e expression)
      (accept evaluate' name f expression) m n := by
  rw [accept_eq, accept_eq, settings]
  refine (agree_opened bisimulation holds free agreeing reads).bind fun reading k l inside => ?_
  exact agree_closed bisimulation holds free inside f.settings reading.result

end Run

end Calculator
