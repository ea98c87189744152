import Calculator.Proofs.Evaluation.Outcome

/-!
# What a text calls

The calls of a text are a list, once every call has its answer: each is made after
those before it were answered, and a failure ends the list. A function that is called
with a wrong number of arguments is answered without its body.
-/
namespace Calculator

/-! ## Bodies that run -/

/-- The body of a function under arguments whose number is its arity. -/
def Function.body? : Function → List Float → Option Script
  | .nullary body, [] => some body
  | .unary body, [x] => some (body x)
  | .binary body, [x, y] => some (body x y)
  | .variadic body, xs => some (body xs)
  | _, _ => none

/-- A function does what its body does, or it says which number was expected. -/
theorem Function.call_eq (f : Function) (xs : List Float) :
    f.call xs = (f.body? xs).getD
      (.fail (.arityMismatch (f.arity.expected.getD xs.length) xs.length)) := by
  cases f with
  | nullary body => cases xs <;> rfl
  | unary body => rcases xs with _ | ⟨x, _ | ⟨y, rest⟩⟩ <;> rfl
  | binary body => rcases xs with _ | ⟨x, _ | ⟨y, _ | ⟨z, rest⟩⟩⟩ <;> rfl
  | variadic body => rfl

theorem Function.body?_eq_none_iff (f : Function) (xs : List Float) :
    f.body? xs = none ↔ ∃ expected, f.arity.expected = some expected ∧ xs.length ≠ expected := by
  cases f with
  | nullary body => cases xs <;> simp [body?, arity, Arity.expected]
  | unary body =>
    rcases xs with _ | ⟨x, _ | ⟨y, rest⟩⟩ <;> simp [body?, arity, Arity.expected]
  | binary body =>
    rcases xs with _ | ⟨x, _ | ⟨y, _ | ⟨z, rest⟩⟩⟩ <;> simp [body?, arity, Arity.expected]
  | variadic body => simp [body?, arity, Arity.expected]

/-- Whether a call runs the body of its callable. -/
def Call.runs : Call → Bool
  | .operator _ _ _ _ => true
  | .function _ f xs => (f.body? xs).isSome

/-! ## Calls of a computation -/

namespace Interaction

variable {α β : Type} (answers : Call → CallResult)

/-- The calls of a computation in order, each answered by `answers`. -/
def calls (answers : Call → CallResult) : Interaction α → List Call
  | .done _ => []
  | .call request _ resume => request :: (resume (answers request)).calls answers

theorem calls_onward (p : Interaction (Except EvaluationError α))
    (next : α → Interaction (Except EvaluationError β)) :
    (p.onward next).calls answers = p.calls answers ++
      match p.run (m := Id) fun request _ => answers request with
      | .error _ => []
      | .ok x => (next x).calls answers := by
  induction p with
  | done result => cases result <;> rfl
  | call request site resume ih => exact congrArg (request :: ·) (ih (answers request))

theorem calls_ask (request : Call) (next : Float → Interaction (Except EvaluationError α)) :
    (Interaction.ask request next).calls answers = request ::
      match answers request with
      | .error _ => []
      | .ok x => (next x).calls answers := by
  rw [Interaction.ask, calls]
  cases answers request <;> rfl

end Interaction

/-- A reading makes the calls of the computation that it follows. -/
theorem Reader.Follows.calls (answers : Call → CallResult) {α : Type} {start : Cursor}
    {left : List Char} {p : Reader α start} {q : Interaction (Except EvaluationError α)}
    (follows : Follows left p q) : Interaction.calls answers p = q.calls answers := by
  induction follows with
  | value unread => rfl
  | failure => rfl
  | @call request site elsewhere resume resumed answered ih =>
    exact congrArg (request :: ·) (ih (answers request))

/-! ## Calls of a text -/

/-- The calls of a text in order, each answered by `answers`. -/
def Grammar.calls (answers : Call → CallResult) (v : Vocabulary) (text : String) : List Call :=
  Interaction.calls answers (Grammar.expression v (.ofString text))

/-- The calls of a text that run the body of their callable. -/
def Grammar.invocations (answers : Call → CallResult) (v : Vocabulary) (text : String) : List Call :=
  (Grammar.calls answers v text).filter Call.runs

/-- The calls of a tree in order, each answered by `answers`. -/
def Tree.calls (answers : Call → CallResult) (t : Tree) : List Call := t.value.calls answers

theorem Grammar.calls_of_reads (answers : Call → CallResult) {v : Vocabulary} {t : Tree}
    {text : String} {left : List Char} (stands : t.Over v (.chain .polynomial))
    (reads : t.Reads v text.toList left) (ended : Unread.skip left = []) :
    Grammar.calls answers v text = t.calls answers :=
  (Grammar.expression_follows stands reads ended).calls answers

/-! ## The first call that fails -/

/-- A call is the first that fails, and the last one that is made. -/
def Call.FailsFirst (answers : Call → CallResult) (made : List Call) (request : Call)
    (cause : CallError) : Prop :=
  ∃ earlier, made = earlier ++ [request] ∧ (∀ other ∈ earlier, ∃ x, answers other = .ok x) ∧
    answers request = .error cause

theorem Call.FailsFirst.mem {answers : Call → CallResult} {made : List Call} {request : Call}
    {cause : CallError} (fails : FailsFirst answers made request cause) : request ∈ made := by
  obtain ⟨earlier, rfl, -⟩ := fails
  exact List.mem_append_right _ List.mem_cons_self

/-- Either all calls of a reading are answered, and it fails for a reason in the text if it
    fails at all; or it comes to the failure of its last call, which is the first to fail. -/
theorem Reader.Keeps.failsFirst {α : Type} {start : Cursor} {p : Reader α start} (keeps : Keeps p)
    (answers : Call → CallResult) :
    ((∀ request ∈ Interaction.calls answers p, ∃ x, answers request = .ok x) ∧
        ∀ e, (p.run (m := Id) fun request _ => answers request).result = .error e → e.OfText) ∨
      ∃ request cause, Call.FailsFirst answers (Interaction.calls answers p) request cause ∧
        (p.run (m := Id) fun request _ => answers request).result =
          .error (request.failure cause) := by
  induction keeps with
  | done _ failing => exact .inl ⟨nofun, failing⟩
  | @call request site resume _ _ refused ih =>
    rw [Interaction.calls]
    change ((∀ other ∈ _, _) ∧ ∀ e, (((resume (answers request)).run (m := Id) _).result = _) → _) ∨
      ∃ last cause, _ ∧ ((resume (answers request)).run (m := Id) _).result = _
    cases reply : answers request with
    | error cause =>
      obtain ⟨c, within, fails⟩ := refused cause
      rw [fails]
      exact .inr ⟨request, cause, ⟨[], rfl, nofun, reply⟩, rfl⟩
    | ok x =>
      rcases ih x with ⟨all, failing⟩ | ⟨last, cause, ⟨earlier, split, before, refuses⟩, failed⟩
      · exact .inl ⟨List.forall_mem_cons.2 ⟨⟨x, reply⟩, all⟩, failing⟩
      · refine .inr ⟨last, cause, ⟨request :: earlier, ?_, ?_, refuses⟩, failed⟩
        · rw [split, List.cons_append]
        · exact List.forall_mem_cons.2 ⟨⟨x, reply⟩, before⟩

end Calculator
