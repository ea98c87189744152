import Calculator.Proofs.Run.Reentrancy

/-!
# What is behind a failure

The settings decide what an evaluator makes of the outcome of its expression, and keep the
cause of a failure that they change. Behind a failure stand, from the outside in, the call
that failed, what its callable answered, and the failure of a further evaluation that the
callable passed on. Each evaluation that is started on the way has one more evaluator in
progress, so every chain of causes is followed to its end by induction on the idle ones.
-/
namespace Calculator

/-- The stage that fails with a call. -/
def Call.stage : Call → EvaluationError.Kind
  | .operator .. => .operator
  | .function .. => .call

namespace Run

variable {evaluators : Evaluators} {name expression : String} {evaluator : Evaluator}
  {m k l : Machine} {request : Call} {site : Site} {cause : CallError} {e : EvaluationError}

/-- What an expression comes to before the settings have a say. -/
def raw (evaluators : Evaluators) (name : String) (v : Vocabulary) (expression : String)
    (m : Machine) : Option EvaluationResult :=
  if m.isBusy name then some (.error .reentrant)
  else (opened (evaluate evaluators) name v expression m).map fun (reading, _) => reading.result

theorem raw_of_busy (busy : name ∈ m.active) (v : Vocabulary) :
    raw evaluators name v expression m = some (.error .reentrant) := by
  have rejects : m.isBusy name = true := List.contains_iff_mem.2 busy
  rw [raw, if_pos rejects]

theorem raw_of_idle {v : Vocabulary} (free : name ∉ m.active)
    {reading : Reading Float (.ofString expression)}
    (ran : opened (evaluate evaluators) name v expression m = some (reading, k)) :
    raw evaluators name v expression m = some reading.result := by
  have accepts : ¬ m.isBusy name = true := fun busy => free (List.contains_iff_mem.1 busy)
  rw [raw, if_neg accepts, ran, Option.map_some]

/-! ## What the settings make of an outcome -/

/-- What an evaluator answers, by its settings and what its expression came to. -/
structure Settled (settings : Settings) (raw answer : EvaluationResult) : Prop where
  /-- If no result may be other than a number, a failure stands behind another one. -/
  strict : settings.allowNan = false →
    (∀ x, answer = .ok x ↔ raw = .ok x ∧ x.isNaN = false) ∧
      ∀ e, answer = .error e → e.kind = .notANumber ∧
        (e.source? = none ↔ ∃ x, raw = .ok x ∧ x.isNaN = true) ∧
          ∀ cause, raw = .error cause → e.source? = some (.evaluation cause)
  silent : settings.allowNan = true → settings.neverThrows = true →
    ∃ x, answer = .ok x ∧ (∀ y, raw = .ok y → x = y) ∧
      (x.isNaN = true ↔ (∃ y, raw = .ok y ∧ y.isNaN = true) ∨ ∃ e, raw = .error e)
  passing : settings.allowNan = true → settings.neverThrows = false →
    answer = raw ∧ ∀ e, answer = .error e → e.kind ≠ .notANumber

theorem settled_of_ok (settings : Settings) (x : Float) :
    Settled settings (.ok x) (settings.settle (.ok x)) := by
  obtain ⟨allowNan, neverThrows⟩ := settings
  cases allowNan with
  | false =>
    refine ⟨fun _ => ?_, nofun, nofun⟩
    rw [Settings.settle, Bool.not_false, Bool.and_true]
    cases number : x.isNaN with
    | false =>
      refine ⟨fun y => ⟨?_, And.left⟩, nofun⟩
      rintro ⟨⟩
      exact ⟨rfl, number⟩
    | true =>
      refine ⟨fun y => ⟨nofun, ?_⟩, ?_⟩
      · rintro ⟨⟨⟩, value⟩
        exact nomatch value.symm.trans number
      · rintro _ ⟨⟩
        exact ⟨rfl, ⟨fun _ => ⟨x, rfl, number⟩, fun _ => rfl⟩, nofun⟩
  | true =>
    rw [Settings.settle, Bool.not_true, Bool.and_false]
    refine ⟨nofun, fun _ _ => ⟨x, rfl, fun y same => Except.ok.inj same, ?_⟩, fun _ _ => ⟨rfl, nofun⟩⟩
    constructor
    · exact fun none => .inl ⟨x, rfl, none⟩
    · rintro (⟨y, ⟨⟩, none⟩ | ⟨e, ⟨⟩⟩)
      exact none

theorem settled_of_error (settings : Settings) (other : e.kind ≠ .notANumber) :
    Settled settings (.error e) (settings.settle (.error e)) := by
  obtain ⟨allowNan, neverThrows⟩ := settings
  cases allowNan with
  | false =>
    refine ⟨fun _ => ⟨fun x => ⟨nofun, nofun⟩, ?_⟩, nofun, nofun⟩
    rintro _ ⟨⟩
    refine ⟨rfl, ⟨nofun, nofun⟩, ?_⟩
    rintro _ ⟨⟩
    rfl
  | true =>
    cases neverThrows with
    | true =>
      refine ⟨nofun, fun _ _ => ⟨Number.nan, rfl, nofun, ?_⟩, nofun⟩
      exact ⟨fun _ => .inr ⟨e, rfl⟩, fun _ => by decide⟩
    | false =>
      refine ⟨nofun, nofun, fun _ _ => ⟨rfl, ?_⟩⟩
      rintro _ ⟨⟩
      exact other

/-! ## Chains of causes -/

/-- What a failed call leaves behind the failure of the evaluation that made it. -/
structure FailedCall (request : Call) (cause : CallError) (e : EvaluationError) : Prop where
  kind : e.kind = request.stage
  source : e.source? = some (.call cause)
  /-- For a wrong number of arguments that is the cause, whatever the function does. -/
  mismatch : ∀ name f arguments expected, request = .function name f arguments →
    f.arity.expected = some expected → arguments.length ≠ expected →
      cause = .arityMismatch expected arguments.length
  /-- Behind the cause is the failure that it carries, if it carries one. -/
  carried : ∀ behind, cause.source? = some behind ↔
    ∃ inner, cause = .evaluation inner ∧ behind = .evaluation inner

/-- Where a failure comes from that the evaluation of an expression came to or answered. -/
inductive Explained (evaluators : Evaluators) :
    (name expression : String) → Machine → EvaluationError → Prop where
  /-- The evaluator has an evaluation in progress. -/
  | rejected {name expression : String} {m : Machine} {e : EvaluationError}
      (busy : name ∈ m.active) (kind : e.kind = .reentrant) (ends : e.source? = none) :
      Explained evaluators name expression m e
  /-- The text is no expression. -/
  | stopped {name expression : String} {m : Machine} {e : EvaluationError}
      (free : name ∉ m.active)
      (kind : e.kind = .outOfRange ∨ e.kind = .malformed ∨ e.kind = .numeral)
      (ends : e.source? = none) : Explained evaluators name expression m e
  /-- A call was made, and it was answered with a failure. So is explained, in turn, whatever
      failure an evaluation answered that the callable had started. -/
  | failed {name expression : String} {m : Machine} {e : EvaluationError} {evaluator : Evaluator}
      {request : Call} {site : Site} {l k : Machine} {cause : CallError}
      (found : evaluators.find? name = some evaluator) (free : name ∉ m.active)
      (makes : (Grammar.expression evaluator.vocabulary (.ofString expression)).Makes
        (answer (evaluate evaluators)) (m.opening name expression) request site l)
      (answered : answer (evaluate evaluators) request site l = some (.error cause, k))
      (call : FailedCall request cause e)
      (nested : ∀ other text n inner n',
        request.script.Starts (evaluate evaluators) (l.calling request site) other text n →
          evaluate evaluators other text n = some (some (.error inner), n') →
            Explained evaluators other text n inner) :
      Explained evaluators name expression m e
  /-- The result was not a number. -/
  | notANumber {name expression : String} {m : Machine} {e : EvaluationError}
      (kind : e.kind = .notANumber) (ends : e.source? = none) :
      Explained evaluators name expression m e
  /-- The failure stands for another one. -/
  | masked {name expression : String} {m : Machine} {e cause : EvaluationError}
      (kind : e.kind = .notANumber) (source : e.source? = some (.evaluation cause))
      (explained : Explained evaluators name expression m cause) :
      Explained evaluators name expression m e

theorem mismatch_of_answer {function : String} {f : Function} {arguments : List Float}
    {expected : Nat} {evaluate : String → String → Run (Option EvaluationResult)}
    (answered : answer evaluate (.function function f arguments) site l = some (.error cause, k))
    (fixed : f.arity.expected = some expected) (wrong : arguments.length ≠ expected) :
    cause = .arityMismatch expected arguments.length := by
  have ran : script evaluate (f.call arguments)
      (l.calling (.function function f arguments) site) = some (.error cause, k) := answered
  rw [Function.call_of_expected_ne fixed wrong] at ran
  cases ran
  rfl

theorem failedCall_of_answer {evaluate : String → String → Run (Option EvaluationResult)}
    (answered : answer evaluate request site l = some (.error cause, k)) :
    FailedCall request cause (request.failure cause) := by
  refine ⟨?_, ?_, ?_, cause.source?_eq_some_iff⟩
  · cases request <;> rfl
  · cases request <;> rfl
  · rintro name f arguments expected rfl fixed wrong
    exact mismatch_of_answer answered fixed wrong

/-- What the settings make of an explained failure is explained. -/
theorem explained_of_settle {settings : Settings} {outcome : EvaluationResult}
    (settled : settings.settle outcome = .error e)
    (explained : ∀ cause, outcome = .error cause → Explained evaluators name expression m cause) :
    Explained evaluators name expression m e := by
  unfold Settings.settle at settled
  split at settled
  · split at settled
    · cases settled
      exact .notANumber rfl rfl
    · exact nomatch settled
  · rename_i cause
    split at settled
    · exact nomatch settled
    · split at settled
      · cases settled
        exact explained _ rfl
      · cases settled
        exact .masked rfl rfl (explained cause rfl)

/-- Every failure that an evaluation answers is explained. -/
theorem explained_of_error
    (failed : evaluate evaluators name expression m = some (some (.error e), k)) :
    Explained evaluators name expression m e := by
  induction size : evaluators.idle m.active using Nat.strong_induction_on
    generalizing name expression m e k with
  | h size ih =>
    cases found : evaluators.find? name with
    | none =>
      rw [evaluate_of_none found] at failed
      exact nomatch failed
    | some evaluator =>
      by_cases busy : name ∈ m.active
      · rw [evaluate_of_busy found busy] at failed
        refine explained_of_settle (Option.some.inj (Prod.mk.inj (Option.some.inj failed)).1) ?_
        rintro _ ⟨⟩
        exact .rejected busy rfl rfl
      · obtain ⟨reading, n, ran, -, answers, -⟩ : ∃ reading n,
            opened (evaluate evaluators) name evaluator.vocabulary expression m =
              some (reading, n) ∧ _ := evaluate_accepted found busy
        rw [answers] at failed
        refine explained_of_settle (Option.some.inj (Prod.mk.inj (Option.some.inj failed)).1) ?_
        intro cause refused
        have keeps := Grammar.expression_keeps evaluator.vocabulary expression
        rcases (keeps.of_run ran).2 cause refused with
          ofText | ⟨request, site, l, reply, makes, answered, rfl⟩
        · exact .stopped busy ofText.kind ofText.ends
        · refine .failed found busy makes answered (failedCall_of_answer answered) ?_
          intro other text n' inner n'' starts returned
          have active : n'.active = name :: m.active := by
            rw [starts.active]
            exact (Machine.moveTo_active l site.cursor).trans makes.active
          refine ih _ ?_ returned rfl
          rw [active, ← size]
          exact Evaluators.idle_cons_lt found busy

/-- An evaluation answers what its settings make of the outcome of its expression, and every
    failure that it answers has its causes behind it. -/
theorem evaluate_settled (found : evaluators.find? name = some evaluator) (expression : String)
    (m : Machine) :
    ∃ outcome reply n, raw evaluators name evaluator.vocabulary expression m = some outcome ∧
      evaluate evaluators name expression m = some (some reply, n) ∧
        Settled evaluator.settings outcome reply ∧
          ∀ e, reply = .error e → Explained evaluators name expression m e := by
  have explained : ∀ reply n, evaluate evaluators name expression m = some (some reply, n) →
      ∀ e, reply = .error e → Explained evaluators name expression m e := by
    rintro _ n answers e rfl
    exact explained_of_error answers
  by_cases busy : name ∈ m.active
  · have answers : evaluate evaluators name expression m = some (_, _) :=
      evaluate_of_busy found busy
    refine ⟨.error .reentrant, _, _, raw_of_busy busy _, answers, ?_, explained _ _ answers⟩
    exact settled_of_error _ nofun
  · obtain ⟨reading, n, ran, failing, answers, -⟩ : ∃ reading n,
        opened (evaluate evaluators) name evaluator.vocabulary expression m = some (reading, n) ∧ _ :=
      evaluate_accepted found busy
    refine ⟨reading.result, _, _, raw_of_idle busy ran, answers, ?_, explained _ _ answers⟩
    cases came : reading.result with
    | ok x => exact settled_of_ok _ x
    | error e => exact settled_of_error _ (e.isOfReading_iff.1 (failing e came)).2

/-- Behind a masked failure is the failure that it stands for. -/
theorem Explained.of_masked {cause : EvaluationError}
    (explained : Explained evaluators name expression m (.masked cause)) :
    Explained evaluators name expression m cause := by
  cases explained with
  | rejected _ kind _ => cases kind
  | stopped _ kind _ => rcases kind with kind | kind | kind <;> cases kind
  | @failed _ _ _ _ _ request _ _ _ _ _ _ _ _ call _ => cases request <;> cases call.kind
  | notANumber _ ends => cases ends
  | masked _ source explained =>
    cases source
    exact explained

/-- Behind the failure of a text that is a call alone is what its callable answered. -/
theorem Explained.of_isCall {function : String}
    (explained : Explained evaluators name expression m (.callFailed function cause))
    (found : evaluators.find? name = some evaluator)
    (isCall : Grammar.IsCall evaluator.vocabulary expression request site) :
    FailedCall request cause (.callFailed function cause) ∧
      ∀ other text n inner n',
        request.script.Starts (evaluate evaluators) ((m.opening name expression).calling request site)
          other text n →
        evaluate evaluators other text n = some (some (.error inner), n') →
          Explained evaluators other text n inner := by
  cases explained with
  | rejected _ kind _ => cases kind
  | stopped _ kind _ => rcases kind with kind | kind | kind <;> cases kind
  | failed known _ makes _ call nested =>
    cases found.symm.trans known
    cases call.source
    obtain ⟨resume, begins, ends⟩ := isCall
    rw [begins] at makes
    cases makes with
    | now => exact ⟨call, nested⟩
    | @behind _ _ _ _ _ _ _ _ reply _ later =>
      obtain ⟨reading, done, -⟩ := ends reply
      rw [done] at later
      cases later
  | notANumber kind _ => cases kind
  | masked kind _ _ => cases kind

/-- An accepted evaluation of a text that is a call alone. -/
theorem evaluate_of_isCall (found : evaluators.find? name = some evaluator) (free : name ∉ m.active)
    (isCall : Grammar.IsCall evaluator.vocabulary expression request site) {reply : CallResult}
    (answered : answer (evaluate evaluators) request site (m.opening name expression) =
      some (reply, k)) :
    evaluate evaluators name expression m =
      some (some (evaluator.settings.settle (request.outcome reply)),
        k.exited evaluator.settings (request.outcome reply)) := by
  obtain ⟨reading, n, ran, -, answers, -⟩ : ∃ reading n,
      opened (evaluate evaluators) name evaluator.vocabulary expression m = some (reading, n) ∧ _ :=
    evaluate_accepted found free
  obtain ⟨resume, begins, ends⟩ := isCall
  obtain ⟨last, done, result⟩ := ends reply
  change ((Grammar.expression evaluator.vocabulary (.ofString expression)).run
    (answer (evaluate evaluators)) (m.opening name expression)) = _ at ran
  rw [begins] at ran
  change (answer (evaluate evaluators) request site (m.opening name expression)).bind
    (fun p => (resume p.1).run (answer (evaluate evaluators)) p.2) = _ at ran
  rw [answered, Option.bind_some, done] at ran
  cases ran
  rw [answers, result]

/-- Asked again by the evaluator that it waits for, the first of two evaluators answers a
    failure that stands for the rejection, and nothing is behind that. Where none of the two
    makes a value of its failures, the first call fails: behind it is the failure of the
    evaluation on the second evaluator, which has its own causes behind it. -/
theorem evaluate_settled_duet :
    (∃ m outcome e n, Started duet ["second", "first"] "first" "again()" m ∧
      raw duet "first" (.calling "again" "second" "back()") "again()" m = some outcome ∧
        evaluate duet "first" "again()" m = some (some (.error e), n) ∧
          e.kind = .notANumber ∧ outcome = .error .reentrant ∧
            e.source? = some (.evaluation .reentrant) ∧
              Explained duet "first" "again()" m e) ∧
      ∃ e n inner k n', evaluate (pair {} {}) "first" "again()" (.start none) =
          some (some (.error (.masked e)), n) ∧
        FailedCall (.relaying "again" "second" "back()") (.evaluation inner) e ∧
          evaluate (pair {} {}) "second" "back()" k = some (some (.error inner), n') ∧
            inner = .masked (.callFailed "back" (.evaluation (.masked .reentrant))) ∧
              Explained (pair {} {}) "second" "back()" k inner := by
  constructor
  · obtain ⟨-, m, -, started⟩ := started_duet
    have found : duet.find? "first" = some ⟨{}, .calling "again" "second" "back()"⟩ := rfl
    have busy : "first" ∈ m.active := by
      rw [started.active]
      decide
    obtain ⟨outcome, reply, n, came, answers, settled, explained⟩ :=
      evaluate_settled found "again()" m
    have rejected : outcome = .error .reentrant := by
      rw [raw_of_busy busy] at came
      exact (Option.some.inj came).symm
    obtain ⟨values, failures⟩ := settled.strict rfl
    cases reply with
    | ok x => exact nomatch rejected.symm.trans ((values x).1 rfl).1
    | error e =>
      obtain ⟨kind, -, behind⟩ := failures e rfl
      exact ⟨m, outcome, e, n, started, came, answers, kind, rejected, behind _ rejected,
        explained e rfl⟩
  · obtain ⟨site, again⟩ := Grammar.isCall_again "second" "back()"
    obtain ⟨place, back⟩ := Grammar.isCall_back "first" "again()"
    have found : (pair {} {}).find? "first" = some ⟨{}, .calling "again" "second" "back()"⟩ := rfl
    have other : (pair {} {}).find? "second" = some ⟨{}, .calling "back" "first" "again()"⟩ := rfl
    let k := ((Machine.start none).opening "first" "again()").calling
      (.relaying "again" "second" "back()") site
    let l := (k.opening "second" "back()").calling (.relaying "back" "first" "again()") place
    have outer : k.active = ["first"] := Machine.moveTo_active _ _
    have both : l.active = "second" :: k.active := Machine.moveTo_active _ _
    have idle : "second" ∉ k.active := by
      rw [outer]
      decide
    have busy : "first" ∈ l.active := by
      rw [both, outer]
      decide
    -- The innermost evaluation is rejected, and each of the others fails with what is inside it.
    have rejected : evaluate (pair {} {}) "first" "again()" l =
        some (some (.error (.masked .reentrant)), _) := evaluate_of_busy found busy
    have second : evaluate (pair {} {}) "second" "back()" k =
        some (some (.error (.masked (.callFailed "back" (.evaluation (.masked .reentrant))))), _) :=
      evaluate_of_isCall other idle back (answer_of_relaying rejected)
    have first := evaluate_of_isCall (m := .start none) found List.not_mem_nil again
      (answer_of_relaying second)
    obtain ⟨outcome, reply, n, -, answers, -, explained⟩ :=
      evaluate_settled found "again()" (.start none)
    cases answers.symm.trans first
    obtain ⟨call, nested⟩ := (explained _ rfl).of_masked.of_isCall found again
    exact ⟨_, _, _, k, _, first, call, second, rfl, nested _ _ _ _ _ .now second⟩

end Run

end Calculator
