import Calculator.Proofs.Evaluation.Composition
import Calculator.Proofs.Run.Nesting

/-!
# Chains of evaluations

An evaluation starts others through the callables of its expression, and those start
others again. The chain of a started evaluation names the evaluators whose evaluations
led to it, the innermost first. They are those that the machine has in progress, and no
evaluator is among them twice.
-/
namespace Calculator

/-- A running callable starts an evaluation, on the machine that it has come to. -/
inductive Script.Starts (evaluate : String → String → Run (Option EvaluationResult)) :
    Script → Machine → String → String → Machine → Prop where
  | now {name expression : String} {resume : Option EvaluationResult → Script} {m : Machine} :
      Starts evaluate (.evaluate name expression resume) m name expression m
  | draw {resume : Float → Script} {m k : Machine} {name expression : String}
      (later : Starts evaluate (resume m.draw.1) m.draw.2 name expression k) :
      Starts evaluate (.draw resume) m name expression k
  | load {cell : Nat} {resume : Float → Script} {m k : Machine} {name expression : String}
      (later : Starts evaluate (resume (m.load cell)) m name expression k) :
      Starts evaluate (.load cell resume) m name expression k
  | store {cell : Nat} {x : Float} {resume : Script} {m k : Machine} {name expression : String}
      (later : Starts evaluate resume (m.store cell x) name expression k) :
      Starts evaluate (.store cell x resume) m name expression k
  | behind {other text : String} {resume : Option EvaluationResult → Script} {m n k : Machine}
      {answer : Option EvaluationResult} {name expression : String}
      (answered : evaluate other text m = some (answer, n))
      (later : Starts evaluate (resume answer) n name expression k) :
      Starts evaluate (.evaluate other text resume) m name expression k

/-- A computation makes a call, on the machine that it has come to. -/
inductive Interaction.Makes {α : Type} (answer : Call → Site → Run CallResult) :
    Interaction α → Machine → Call → Site → Machine → Prop where
  | now {request : Call} {site : Site} {resume : CallResult → Interaction α} {m : Machine} :
      Makes answer (.call request site resume) m request site m
  | behind {first request : Call} {place site : Site} {resume : CallResult → Interaction α}
      {m n k : Machine} {reply : CallResult} (answered : answer first place m = some (reply, n))
      (later : Makes answer (resume reply) n request site k) :
      Makes answer (.call first place resume) m request site k

/-- A callable of a computation starts an evaluation, on the machine that it has come to. -/
inductive Interaction.Starts {α : Type}
    (evaluate : String → String → Run (Option EvaluationResult)) :
    Interaction α → Machine → String → String → Machine → Prop where
  | inside {request : Call} {site : Site} {resume : CallResult → Interaction α} {m k : Machine}
      {name expression : String}
      (starts : request.script.Starts evaluate (m.calling request site) name expression k) :
      Starts evaluate (.call request site resume) m name expression k
  | behind {request : Call} {site : Site} {resume : CallResult → Interaction α} {m n k : Machine}
      {reply : CallResult} {name expression : String}
      (answered : Run.answer evaluate request site m = some (reply, n))
      (later : Starts evaluate (resume reply) n name expression k) :
      Starts evaluate (.call request site resume) m name expression k

namespace Run

variable {evaluators : Evaluators}

/-- An evaluation is started on a machine, by one that was accepted on the first evaluator
    of the chain, and this by one on the second; or from outside of all evaluations. -/
inductive Started (evaluators : Evaluators) : List String → String → String → Machine → Prop where
  | outermost {name expression : String} {m : Machine} (none : m.active = []) :
      Started evaluators [] name expression m
  | nested {chain : List String} {outer text name expression : String} {evaluator : Evaluator}
      {m k : Machine} (started : Started evaluators chain outer text m)
      (found : evaluators.find? outer = some evaluator) (accepted : m.isBusy outer = false)
      (starts : (Grammar.expression evaluator.vocabulary (.ofString text)).Starts
        (evaluate evaluators) (m.opening outer text) name expression k) :
      Started evaluators (outer :: chain) name expression k

open Machine

/-! ## What a run evaluates -/

section

variable {evaluate evaluate' : String → String → Run (Option EvaluationResult)} {m : Machine}

theorem answer_eq (evaluate : String → String → Run (Option EvaluationResult)) (request : Call)
    (site : Site) (m : Machine) :
    answer evaluate request site m = script evaluate request.script (m.calling request site) := rfl

/-- A callable evaluates what it starts and nothing else: its run is the same if all other
    evaluations come to something else, or to no outcome at all. -/
theorem script_eq_of_starts {s : Script}
    (same : ∀ name text k, s.Starts evaluate m name text k →
      evaluate name text k = evaluate' name text k) :
    script evaluate s m = script evaluate' s m := by
  induction s generalizing m with
  | finish result => rfl
  | draw resume ih => exact ih _ fun name text k starts => same name text k (.draw starts)
  | load cell resume ih => exact ih _ fun name text k starts => same name text k (.load starts)
  | store cell x resume ih => exact ih fun name text k starts => same name text k (.store starts)
  | evaluate name text resume ih =>
    change (evaluate name text m).bind (fun p => script evaluate (resume p.1) p.2) =
      (evaluate' name text m).bind fun p => script evaluate' (resume p.1) p.2
    rw [← same name text m .now]
    cases answered : evaluate name text m with
    | none => rfl
    | some p => exact ih p.1 fun name text k starts => same name text k (.behind answered starts)

/-- A computation evaluates what its callables start and nothing else. -/
theorem run_eq_of_starts {α : Type} {p : Interaction α}
    (same : ∀ name text k, p.Starts evaluate m name text k →
      evaluate name text k = evaluate' name text k) :
    p.run (answer evaluate) m = p.run (answer evaluate') m := by
  induction p generalizing m with
  | done result => rfl
  | call request site resume ih =>
    have answers : answer evaluate request site m = answer evaluate' request site m := by
      rw [answer_eq, answer_eq]
      exact script_eq_of_starts fun name text k starts => same name text k (.inside starts)
    change (answer evaluate request site m).bind (fun p => (resume p.1).run (answer evaluate) p.2) =
      (answer evaluate' request site m).bind fun p => (resume p.1).run (answer evaluate') p.2
    rw [← answers]
    cases answered : answer evaluate request site m with
    | none => rfl
    | some p => exact ih p.1 fun name text k starts => same name text k (.behind answered starts)

/-- A started evaluation that is accepted evaluates what is started behind it and nothing
    else. -/
theorem accept_eq_of_started {chain : List String} {name expression : String}
    {evaluator : Evaluator} (started : Started evaluators chain name expression m)
    (found : evaluators.find? name = some evaluator) (accepted : m.isBusy name = false)
    (same : ∀ other text k, Started evaluators (name :: chain) other text k →
      Run.evaluate evaluators other text k = evaluate' other text k) :
    accept (Run.evaluate evaluators) name evaluator expression m =
      accept evaluate' name evaluator expression m := by
  have reads : opened (Run.evaluate evaluators) name evaluator.vocabulary expression m =
      opened evaluate' name evaluator.vocabulary expression m :=
    run_eq_of_starts (m := m.opening name expression) fun other text k starts =>
      same other text k (.nested started found accepted starts)
  rw [accept_eq, accept_eq]
  change (opened _ name _ expression m).bind (fun p => closed _ p.1.result p.2) =
    (opened _ name _ expression m).bind fun p => closed _ p.1.result p.2
  rw [reads]

end

/-! ## Evaluations in progress along a run -/

theorem keeps_of_evaluate {name expression : String} {m n : Machine}
    {answer : Option EvaluationResult}
    (ran : evaluate evaluators name expression m = some (answer, n)) : m.Keeps m.active n := by
  obtain ⟨_, _, same, keeps⟩ := evaluate_returns evaluators name expression m
  cases ran.symm.trans same
  exact keeps

theorem active_of_answer {request : Call} {site : Site} {m n : Machine} {reply : CallResult}
    (ran : answer (evaluate evaluators) request site m = some (reply, n)) :
    n.active = m.active := by
  -- Beside itself the call keeps what was in progress, wherever the outer evaluations are.
  have start : Lockstep (· = ·) [] (m.moveTo site.cursor) (m.moveTo site.cursor)
      (m.moveTo site.cursor) (m.moveTo site.cursor) := ⟨rfl, .refl _ _, .refl _ _⟩
  have noted := start.note bisimulation_eq .tracing "GRAM" fun _ => request.describe
  obtain ⟨_, n', _, same, -, after⟩ := agree_script bisimulation_eq
    (agreeing_evaluate bisimulation_eq (.refl evaluators _)) (List.nil_subset _) request.script
    noted
  cases ran.symm.trans same
  rw [after.left.active, moveTo_active]

end Run

theorem Script.Starts.active {evaluators : Evaluators} {s : Script} {m k : Machine}
    {name expression : String} (starts : s.Starts (Run.evaluate evaluators) m name expression k) :
    k.active = m.active := by
  induction starts with
  | now => rfl
  | draw _ ih => exact ih
  | load _ ih => exact ih
  | store _ ih => exact ih
  | behind answered _ ih => rw [ih, (Run.keeps_of_evaluate answered).active]

/-- A callable that runs outside of all evaluations starts outermost ones. -/
theorem Script.Starts.outermost {evaluators : Evaluators} {s : Script} {m k : Machine}
    {name expression : String} (starts : s.Starts (Run.evaluate evaluators) m name expression k)
    (none : m.active = []) : Run.Started evaluators [] name expression k :=
  .outermost (starts.active.trans none)

theorem Interaction.Starts.active {α : Type} {evaluators : Evaluators} {p : Interaction α}
    {m k : Machine} {name expression : String}
    (starts : p.Starts (Run.evaluate evaluators) m name expression k) : k.active = m.active := by
  induction starts with
  | @inside request site resume m k name expression starts =>
    rw [starts.active]
    exact Machine.moveTo_active m site.cursor
  | behind answered _ ih => rw [ih, Run.active_of_answer answered]

theorem Interaction.Makes.active {α : Type} {evaluators : Evaluators} {p : Interaction α}
    {m k : Machine} {request : Call} {site : Site}
    (makes : p.Makes (Run.answer (Run.evaluate evaluators)) m request site k) :
    k.active = m.active := by
  induction makes with
  | now => rfl
  | behind answered _ ih => rw [ih, Run.active_of_answer answered]

namespace Run

variable {evaluators : Evaluators} {chain : List String} {name expression : String} {m : Machine}

/-- The evaluations in progress are those of the chain. -/
theorem Started.active (started : Started evaluators chain name expression m) :
    m.active = chain := by
  induction started with
  | outermost none => exact none
  | nested _ _ _ starts ih =>
    rw [starts.active, ← ih]
    rfl

/-- No evaluator has two evaluations in progress. -/
theorem Started.nodup (started : Started evaluators chain name expression m) : chain.Nodup := by
  induction started with
  | outermost _ => exact List.nodup_nil
  | @nested chain outer text _ _ _ m _ started _ accepted _ ih =>
    refine List.nodup_cons.2 ⟨?_, ih⟩
    rw [← started.active]
    intro busy
    rw [Machine.isBusy, List.contains_iff_mem.2 busy] at accepted
    cases accepted

theorem Started.known (started : Started evaluators chain name expression m) :
    chain ⊆ evaluators.map (·.1) := by
  induction started with
  | outermost _ => exact List.nil_subset _
  | nested _ found _ _ ih =>
    exact List.cons_subset.2 ⟨List.mem_map_of_mem (Evaluators.mem_of_find? found), ih⟩

end Run

/-! ## Two evaluators that call each other -/

/-- A text that calls what begins with an evaluation starts this evaluation. -/
theorem Grammar.IsCall.starts {v : Vocabulary} {text : String} {request : Call} {site : Site}
    (isCall : IsCall v text request site) {other inner : String}
    {resume : Option EvaluationResult → Script}
    (script : request.script = .evaluate other inner resume)
    (evaluate : String → String → Run (Option EvaluationResult)) (m : Machine) :
    (expression v (.ofString text)).Starts evaluate m other inner (m.calling request site) := by
  obtain ⟨resumed, begins, -⟩ := isCall
  rw [begins]
  refine .inside ?_
  rw [script]
  exact .now

/-- The answer of an evaluation as that of a callable. -/
def Script.relayed : Option EvaluationResult → CallResult
  | some (.ok x) => .ok x
  | some (.error e) => .error (.evaluation e)
  | none => .error (.failed "There is no such evaluator")

def Script.relay (answer : Option EvaluationResult) : Script := .finish (relayed answer)

/-- One function, which evaluates an expression on another evaluator. -/
def Vocabulary.calling (name evaluator expression : String) : Vocabulary :=
  (Vocabulary.empty.declareAll
    (.functions [(name, .nullary (.evaluate evaluator expression .relay))])).vocabulary

/-- The call of this function. -/
def Call.relaying (name evaluator expression : String) : Call :=
  .function name (.nullary (.evaluate evaluator expression .relay)) []

/-- The callable answers what the evaluation that it starts answers. -/
theorem Run.answer_of_relaying {evaluate : String → String → Run (Option EvaluationResult)}
    {name other text : String} {site : Site} {m n : Machine} {answer : Option EvaluationResult}
    (ran : evaluate other text (m.calling (.relaying name other text) site) = some (answer, n)) :
    Run.answer evaluate (.relaying name other text) site m = some (Script.relayed answer, n) := by
  change (evaluate other text (m.calling (.relaying name other text) site)).bind
    (fun p => script evaluate (Script.relay p.1) p.2) = _
  rw [ran]
  rfl

theorem Grammar.callable_again : Callable "again" := by
  rintro c ⟨⟩
  decide

theorem Grammar.callable_back : Callable "back" := by
  rintro c ⟨⟩
  decide

theorem Grammar.isCall_again (evaluator expression : String) :
    ∃ site, IsCall (.calling "again" evaluator expression) "again()"
      (.relaying "again" evaluator expression) site :=
  exists_isCall (Vocabulary.Reachable.declareAll _ .empty).wellFormed List.mem_cons_self callable_again

theorem Grammar.isCall_back (evaluator expression : String) :
    ∃ site, IsCall (.calling "back" evaluator expression) "back()"
      (.relaying "back" evaluator expression) site :=
  exists_isCall (Vocabulary.Reachable.declareAll _ .empty).wellFormed List.mem_cons_self callable_back

/-- Each of the evaluators has a function that evaluates a call of the other's. -/
def pair (first second : Settings) : Evaluators :=
  [("first", ⟨first, .calling "again" "second" "back()"⟩),
   ("second", ⟨second, .calling "back" "first" "again()"⟩)]

/-- Two such evaluators, of which the second one makes values of its failures. -/
def duet : Evaluators := pair {} { allowNan := true, neverThrows := true }

/-- A call on the first evaluator starts one on the second, and this one on the first. -/
theorem Run.started_duet :
    ∃ m k, Run.Started duet ["first"] "second" "back()" m ∧
      Run.Started duet ["second", "first"] "first" "again()" k := by
  have outermost : Started duet [] "first" "again()" (.start none) := .outermost rfl
  obtain ⟨site, again⟩ := Grammar.isCall_again "second" "back()"
  obtain ⟨place, back⟩ := Grammar.isCall_back "first" "again()"
  have inner : Started duet ["first"] "second" "back()" _ :=
    .nested outermost rfl rfl (again.starts rfl (evaluate duet) _)
  refine ⟨_, _, inner, .nested inner rfl ?_ (back.starts rfl (evaluate duet) _)⟩
  rw [Machine.isBusy, inner.active]
  decide

end Calculator
