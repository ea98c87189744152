import Calculator.Proofs.Run.CallChain

/-!
# One expression at a time

An evaluator evaluates one expression at a time. What a started evaluation does is
settled by the chain that led to it: on an evaluator of the chain it is rejected before
anything is read, and on any other it is read from the start of its expression. Either
way it returns, and leaves the evaluations of the chain in progress where they were.
-/
namespace Calculator

namespace Reader

/-- Whatever happens to the machine, a run ends where the reading can end, and it fails for
    a reason in the text or with the call that it made last. -/
theorem Keeps.of_run {α : Type} {start : Cursor} {p : Reader α start} (keeps : Keeps p)
    {answer : Call → Site → Run CallResult} {m k : Machine} {reading : Reading α start}
    (ran : p.run answer m = some (reading, k)) :
    start.Within reading.cursor ∧ ∀ e, reading.result = .error e → e.OfText ∨
      ∃ request site l cause, p.Makes answer m request site l ∧
        answer request site l = some (.error cause, k) ∧ e = request.failure cause := by
  induction keeps generalizing m with
  | done within failing =>
    cases ran
    exact ⟨within, fun e failed => .inl (failing e failed)⟩
  | @call request site resume within _ refused ih =>
    change (answer request site m).bind (fun p => (resume p.1).run answer p.2) = _ at ran
    obtain ⟨⟨reply, n⟩, answered, ran⟩ := Option.bind_eq_some_iff.1 ran
    dsimp only at ran
    cases reply with
    | ok x =>
      obtain ⟨inside, failing⟩ := ih x ran
      refine ⟨inside, fun e failed => (failing e failed).imp_right ?_⟩
      rintro ⟨last, place, l, cause, makes, failed, same⟩
      exact ⟨last, place, l, cause, .behind answered makes, failed, same⟩
    | error cause =>
      obtain ⟨c, inside, fails⟩ := refused cause
      rw [fails] at ran
      cases ran
      refine ⟨inside, fun e failed => .inr ⟨request, site, m, cause, .now, answered, ?_⟩⟩
      exact (Except.error.inj failed).symm

theorem Keeps.isOfReading_of_run {α : Type} {start : Cursor} {p : Reader α start} (keeps : Keeps p)
    {answer : Call → Site → Run CallResult} {m k : Machine} {reading : Reading α start}
    (ran : p.run answer m = some (reading, k)) :
    ∀ e, reading.result = .error e → e.isOfReading = true := by
  intro e failed
  rcases (keeps.of_run ran).2 e failed with ofText | ⟨request, -, -, cause, -, -, rfl⟩
  · exact ofText.isOfReading
  · exact request.isOfReading_failure cause

end Reader

namespace Run

open Machine

variable {evaluators : Evaluators} {name expression : String} {evaluator : Evaluator} {m : Machine}

/-- Evaluations one after another, whatever they answer. -/
def evaluateAll (evaluators : Evaluators) : List (String × String) → Run Unit
  | [] => pure ()
  | (name, expression) :: rest => do
    let _ ← evaluate evaluators name expression
    evaluateAll evaluators rest

theorem evaluateAll_returns (evaluators : Evaluators) (earlier : List (String × String))
    (m : Machine) :
    ∃ k, evaluateAll evaluators earlier m = some ((), k) ∧ m.Keeps m.active k := by
  induction earlier generalizing m with
  | nil => exact ⟨m, rfl, .refl _ _⟩
  | cons first rest ih =>
    obtain ⟨answer, n, ran, kept⟩ := evaluate_returns evaluators first.1 first.2 m
    obtain ⟨k, later, keptLater⟩ := ih n
    rw [kept.active] at keptLater
    refine ⟨k, ?_, kept.trans keptLater⟩
    change (evaluate evaluators first.1 first.2 m).bind
      (fun p => evaluateAll evaluators rest p.2) = _
    rw [ran]
    exact later

/-- What an evaluation answers. -/
def outcome (evaluators : Evaluators) (name expression : String) (m : Machine) :
    Option (Option EvaluationResult) :=
  (evaluate evaluators name expression m).map (·.1)

/-- Answers depend on the evaluations in progress and on what callables keep. -/
theorem outcome_of_alike {k : Machine} (alike : Alike m k) (evaluators : Evaluators)
    (name expression : String) :
    outcome evaluators name expression m = outcome evaluators name expression k := by
  obtain ⟨answer, m', k', left, right, -⟩ :=
    agreeing_evaluate bisimulation_alike (.refl evaluators m.active) name expression m k alike rfl
  rw [outcome, outcome, left, right]
  rfl

/-- An accepted evaluation: its expression is read and settled, and its evaluator is in no
    text behind it. -/
theorem evaluate_accepted (found : evaluators.find? name = some evaluator)
    (free : name ∉ m.active) :
    ∃ reading k, opened (evaluate evaluators) name evaluator.vocabulary expression m =
        some (reading, k) ∧
      (∀ e, reading.result = .error e → e.isOfReading = true) ∧
      evaluate evaluators name expression m =
        some (some (evaluator.settings.settle reading.result),
          k.exited evaluator.settings reading.result) ∧
      (k.exited evaluator.settings reading.result).cursors name = .empty := by
  have agreeing : Agreeing (· = ·) (name :: m.active) (evaluate evaluators) (evaluate evaluators) :=
    agreeing_evaluate bisimulation_eq (.refl _ _)
  -- Read beside itself, the expression comes to a result with its evaluator innermost.
  have reads : Agree (Lockstep (· = ·) m.active (m.enter name expression)
      (m.enter name expression)) (opened (evaluate evaluators) name evaluator.vocabulary expression)
      (opened (evaluate evaluators) name evaluator.vocabulary expression) m m :=
    agree_opened bisimulation_eq rfl free agreeing rfl
  obtain ⟨reading, k, _, ran, -, inside⟩ := reads
  refine ⟨reading, k, ran, ?_, ?_, ?_⟩
  · exact (Grammar.expression_keeps evaluator.vocabulary expression).isOfReading_of_run ran
  · rw [evaluate_of_idle found free]
    refine map_eq some ?_
    rw [accept_eq]
    change (opened _ name _ expression m).bind (fun p => closed _ p.1.result p.2) = _
    rw [ran]
    exact closed_eq evaluator.settings reading.result k
  · obtain ⟨journal, same⟩ := exited_eq k evaluator.settings reading.result
    have progress : k.active = name :: m.active := inside.left.active
    rw [same]
    exact leave_cursors progress

/-- What an evaluation does that was started behind a chain of others. -/
structure Guarded (evaluators : Evaluators) (chain : List String) (name expression : String)
    (m : Machine) : Prop where
  progress : m.active = chain
  /-- On an evaluator of the chain nothing is read and no callable runs: only the journal
      gets longer. -/
  rejected : ∀ evaluator, evaluators.find? name = some evaluator → name ∈ chain →
    evaluate evaluators name expression m =
        some (some (evaluator.settings.settle (.error .reentrant)),
          m.rejected evaluator.settings expression) ∧
      ∃ journal, m.rejected evaluator.settings expression = { m with journal := journal }
  /-- On another evaluator the expression is read, and comes to something else than a
      rejection of its own. -/
  accepted : ∀ evaluator, evaluators.find? name = some evaluator → name ∉ chain →
    ∃ reading k, opened (evaluate evaluators) name evaluator.vocabulary expression m =
        some (reading, k) ∧
      (∀ e, reading.result = .error e → e.kind ≠ .reentrant) ∧
      evaluate evaluators name expression m =
        some (some (evaluator.settings.settle reading.result),
          k.exited evaluator.settings reading.result) ∧
      (k.exited evaluator.settings reading.result).cursors name = .empty
  /-- The evaluations of the chain are in progress afterwards, where they were. -/
  returns : ∃ answer n, evaluate evaluators name expression m = some (answer, n) ∧
    n.active = chain ∧ ∀ other ∈ chain, n.cursors other = m.cursors other
  /-- Evaluations that came before have a say only through what callables keep. -/
  forgets : ∀ earlier, ∃ k, evaluateAll evaluators earlier m = some ((), k) ∧
    outcome evaluators name expression k =
      outcome evaluators name expression { m with cells := k.cells, draws := k.draws }

/-- Evaluations are guarded however they were started: an evaluator that has one in progress
    rejects another one, from wherever it comes, and every evaluation leaves those in
    progress as they were. -/
theorem guarded_of_started {chain : List String}
    (started : Started evaluators chain name expression m) :
    Guarded evaluators chain name expression m := by
  obtain rfl := started.active
  refine ⟨rfl, ?_, ?_, ?_, ?_⟩
  · intro evaluator found busy
    exact ⟨evaluate_of_busy found busy, rejected_eq m evaluator.settings expression⟩
  · intro evaluator found free
    obtain ⟨reading, k, ran, failing, answers, empty⟩ := evaluate_accepted found free
    refine ⟨reading, k, ran, fun e failed => ?_, answers, empty⟩
    exact (e.isOfReading_iff.1 (failing e failed)).1
  · obtain ⟨answer, n, ran, keeps⟩ := evaluate_returns evaluators name expression m
    exact ⟨answer, n, ran, keeps.active, keeps.cursors⟩
  · intro earlier
    obtain ⟨k, ran, kept⟩ := evaluateAll_returns evaluators earlier m
    refine ⟨k, ran, ?_⟩
    have alike : Alike k { m with cells := k.cells, draws := k.draws } := ⟨kept.active, rfl, rfl⟩
    exact outcome_of_alike alike evaluators name expression

/-- The first of two evaluators rejects what the second one asks of it. -/
theorem guarded_duet :
    ∃ k, Started duet ["second", "first"] "first" "again()" k ∧
      k.active = ["second", "first"] ∧
      evaluate duet "first" "again()" k =
        some (some (.error (.masked .reentrant)), k.rejected {} "again()") := by
  obtain ⟨-, k, -, started⟩ := started_duet
  have guarded := guarded_of_started started
  refine ⟨k, started, guarded.progress, ?_⟩
  exact (guarded.rejected _ rfl (List.mem_cons_of_mem _ List.mem_cons_self)).1

end Run

end Calculator
