import Calculator.Evaluation.Reading
import Calculator.Evaluation.Tree
import Mathlib

/-!
# Courses of a computation

One way through a computation: the calls that it makes in order, each with an answer,
and what it comes to behind the last one. Nothing is said about who answers. Where the
answers are given in turn and a state is handed on between them, as by callables that
keep something, the run is a course, and every such course is the run.
-/
namespace Calculator

/-- A call that was made, where in the text it was made, and its answer. -/
structure Exchange where
  request : Call
  site : Site
  answer : CallResult

/-- The same call and answer, at no place. -/
def Exchange.unplaced (made : Exchange) : Exchange := { made with site := .nowhere }

namespace Interaction

variable {α β : Type}

/-- The computation makes calls in order, is answered, and comes to a result. -/
inductive Course : Interaction α → List Exchange → α → Prop where
  | done (result : α) : Course (.done result) [] result
  | call {request : Call} {site : Site} {resume : CallResult → Interaction α}
      {answer : CallResult} {exchanges : List Exchange} {result : α}
      (rest : Course (resume answer) exchanges result) :
      Course (.call request site resume) (⟨request, site, answer⟩ :: exchanges) result

theorem Course.bind {p : Interaction α} {next : α → Interaction β} {x : α} {y : β}
    {earlier later : List Exchange} (first : p.Course earlier x)
    (second : (next x).Course later y) : (p.bind next).Course (earlier ++ later) y := by
  induction first with
  | done x => exact second
  | call _ ih => exact .call (ih second)

theorem Course.onward {p : Interaction (Except EvaluationError α)}
    {next : α → Interaction (Except EvaluationError β)} {x : α} {result : Except EvaluationError β}
    {earlier later : List Exchange} (first : p.Course earlier (.ok x))
    (second : (next x).Course later result) : (p.onward next).Course (earlier ++ later) result :=
  first.bind second

/-- What goes on without a call makes no further exchange. -/
theorem Course.onward_done {p : Interaction (Except EvaluationError α)}
    {next : α → Interaction (Except EvaluationError β)} {x : α} {y : β} {made : List Exchange}
    (first : p.Course made (.ok x)) (last : next x = .done (.ok y)) :
    (p.onward next).Course made (.ok y) := by
  have rest : (next x).Course [] (.ok y) := last ▸ .done _
  have whole := first.onward rest
  rwa [List.append_nil] at whole

theorem Course.ask {request : Call} {next : Float → Interaction (Except EvaluationError α)}
    {x : Float} {later : List Exchange} {result : Except EvaluationError α}
    (answered : (next x).Course later result) :
    (Interaction.ask request next).Course (⟨request, .nowhere, .ok x⟩ :: later) result :=
  .call answered

/-- A course to a value comes to a value first, and goes on from there. -/
theorem Course.of_onward {p : Interaction (Except EvaluationError α)}
    {next : α → Interaction (Except EvaluationError β)} {y : β} {made : List Exchange}
    (course : (p.onward next).Course made (.ok y)) :
    ∃ x earlier later, made = earlier ++ later ∧ p.Course earlier (.ok x) ∧
      (next x).Course later (.ok y) := by
  induction p generalizing made with
  | done result =>
    cases result with
    | error e => cases course
    | ok x => exact ⟨x, [], made, rfl, .done _, course⟩
  | call request site resume ih =>
    cases course with
    | call rest =>
      obtain ⟨x, earlier, later, rfl, first, second⟩ := ih _ rest
      exact ⟨x, _ :: earlier, later, rfl, .call first, second⟩

/-- A course to a value has an answer that is one. -/
theorem Course.of_ask {request : Call} {next : Float → Interaction (Except EvaluationError α)}
    {y : α} {made : List Exchange} (course : (Interaction.ask request next).Course made (.ok y)) :
    ∃ x later, made = ⟨request, .nowhere, .ok x⟩ :: later ∧ (next x).Course later (.ok y) := by
  cases course with
  | @call _ _ _ answer later _ rest =>
    cases answer with
    | error e => cases rest
    | ok x => exact ⟨x, later, rfl, rest⟩

/-! ## Answers in turn -/

section

variable {σ : Type} (answer : Call → Site → StateT σ Option CallResult)

/-- The answers of the exchanges are given in turn, from one state to another. -/
inductive Answered : σ → List Exchange → σ → Prop where
  | nil (s : σ) : Answered s [] s
  | cons {s t u : σ} {made : Exchange} {exchanges : List Exchange}
      (answered : answer made.request made.site s = some (made.answer, t))
      (rest : Answered t exchanges u) : Answered s (made :: exchanges) u

theorem run_call (request : Call) (site : Site) (resume : CallResult → Interaction α) (s : σ) :
    (call request site resume).run answer s =
      (answer request site s).bind fun reply => (resume reply.1).run answer reply.2 := rfl

/-- A run is a course whose answers were given in turn. -/
theorem run_eq_some_iff (p : Interaction α) {s u : σ} {result : α} :
    p.run answer s = some (result, u) ↔
      ∃ exchanges, p.Course exchanges result ∧ Answered answer s exchanges u := by
  induction p generalizing s with
  | done x =>
    constructor
    · rintro ⟨⟩
      exact ⟨[], .done _, .nil _⟩
    · rintro ⟨exchanges, ⟨⟩, ⟨⟩⟩
      rfl
  | call request site resume ih =>
    rw [run_call, Option.bind_eq_some_iff]
    constructor
    · rintro ⟨⟨reply, t⟩, answered, rest⟩
      obtain ⟨exchanges, course, others⟩ := (ih reply).1 rest
      exact ⟨⟨request, site, reply⟩ :: exchanges, .call course, .cons answered others⟩
    · rintro ⟨exchanges, ⟨⟩ | @⟨_, _, _, reply, others, _, course⟩, ⟨⟩ | ⟨answered, rest⟩⟩
      exact ⟨_, answered, (ih reply).2 ⟨others, course, rest⟩⟩

end

end Interaction

end Calculator
