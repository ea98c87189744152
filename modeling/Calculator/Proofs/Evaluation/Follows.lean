import Calculator.Evaluation.Tree
import Calculator.Proofs.Vocabulary.Choice

/-!
# Readings and computations

A reading is compared with a computation that knows no text. It follows the
computation if both ask the same calls in the same order and come to the same
result under every answer; a value is reached only with a known text unread. A
reading is barren if it comes to no value under any answer.
-/
namespace Calculator.Reader
open Unread

variable {α β : Type} {start : Cursor} {left between : List Char}

/-- The reading asks the calls of the computation and comes to its results; where
    that is a value, `left` is unread up to ignored characters. -/
inductive Follows (left : List Char) :
    Reader α start → Interaction (Except EvaluationError α) → Prop where
  | value {x : α} {cursor : Cursor} {forward : cursor.ahead.length ≤ start.ahead.length}
      (unread : skip cursor.ahead = skip left) :
      Follows left (.done ⟨.ok x, cursor, forward⟩) (.done (.ok x))
  | failure {e : EvaluationError} {cursor : Cursor}
      {forward : cursor.ahead.length ≤ start.ahead.length} :
      Follows left (.done ⟨.error e, cursor, forward⟩) (.done (.error e))
  | call {request : Call} {site elsewhere : Site} {resume : CallResult → Reader α start}
      {resumed : CallResult → Interaction (Except EvaluationError α)}
      (answered : ∀ answer, Follows left (resume answer) (resumed answer)) :
      Follows left (.call request site resume) (.call request elsewhere resumed)

/-- The reading comes to no value, whatever is answered. -/
inductive Barren : Reader α start → Prop where
  | failure {e : EvaluationError} {cursor : Cursor}
      {forward : cursor.ahead.length ≤ start.ahead.length} :
      Barren (.done ⟨.error e, cursor, forward⟩)
  | call {request : Call} {site : Site} {resume : CallResult → Reader α start}
      (answered : ∀ answer, Barren (resume answer)) : Barren (.call request site resume)

/-! ## What is built from readings that follow -/

theorem since_since (p : Reader α start) {middle first : Cursor}
    (le : start.ahead.length ≤ middle.ahead.length)
    (le' : middle.ahead.length ≤ first.ahead.length) :
    (p.since middle le).since first le' = p.since first (le.trans le') := by
  induction p with
  | done reading => rfl
  | call request site resume ih => exact congrArg (Interaction.call request site) (funext ih)

theorem onward_done (q : Interaction (Except EvaluationError α)) :
    (q.onward fun x => .done (.ok x)) = q := by
  induction q with
  | done result => cases result <;> rfl
  | call request site resume ih => exact congrArg (Interaction.call request site) (funext ih)

theorem Follows.since {p : Reader α start} {q : Interaction (Except EvaluationError α)}
    (follows : Follows left p q) {earlier : Cursor}
    (le : start.ahead.length ≤ earlier.ahead.length) : Follows left (p.since earlier le) q := by
  induction follows with
  | value unread => exact .value unread
  | failure => exact .failure
  | call _ ih => exact .call ih

theorem Barren.since {p : Reader α start} (barren : Barren p) {earlier : Cursor}
    (le : start.ahead.length ≤ earlier.ahead.length) : Barren (p.since earlier le) := by
  induction barren with
  | failure => exact .failure
  | call _ ih => exact .call ih

theorem Follows.andThen {p : Reader α start} {q : Interaction (Except EvaluationError α)}
    {next : (x : α) → (c : Cursor) → c.ahead.length ≤ start.ahead.length → Reader β c}
    {onward : α → Interaction (Except EvaluationError β)} (follows : Follows between p q)
    (continued : ∀ x c le, skip c.ahead = skip between → Follows left (next x c le) (onward x)) :
    Follows left (p.andThen next) (q.onward onward) := by
  induction follows with
  | value unread => exact (continued _ _ _ unread).since _
  | failure => exact .failure
  | call _ ih => exact .call ih

theorem Follows.barren_andThen {p : Reader α start} {q : Interaction (Except EvaluationError α)}
    {next : (x : α) → (c : Cursor) → c.ahead.length ≤ start.ahead.length → Reader β c}
    (follows : Follows between p q)
    (barren : ∀ x c le, skip c.ahead = skip between → Barren (next x c le)) :
    Barren (p.andThen next) := by
  induction follows with
  | value unread => exact (barren _ _ _ unread).since _
  | failure => exact .failure
  | call _ ih => exact .call ih

theorem Barren.andThen {p : Reader α start}
    {next : (x : α) → (c : Cursor) → c.ahead.length ≤ start.ahead.length → Reader β c}
    (barren : Barren p) : Barren (p.andThen next) := by
  induction barren with
  | failure => exact .failure
  | call _ ih => exact .call ih

theorem Follows.ask {next : Float → Reader α start}
    {onward : Float → Interaction (Except EvaluationError α)} (place : Nat) (request : Call)
    (continued : ∀ x, Follows left (next x) (onward x)) :
    Follows left (ask place request next) (.ask request onward) := by
  refine .call fun answer => ?_
  cases answer with
  | error e => exact .failure
  | ok x => exact continued x

theorem Barren.ask {next : Float → Reader α start} (place : Nat) (request : Call)
    (barren : ∀ x, Barren (next x)) : Barren (ask place request next) := by
  refine .call fun answer => ?_
  cases answer with
  | error e => exact .failure
  | ok x => exact barren x

/-- An outcome that was settled without a call. -/
theorem Follows.settled {result : Except EvaluationError α} {cursor : Cursor}
    {forward : cursor.ahead.length ≤ start.ahead.length}
    (unread : skip cursor.ahead = skip left) :
    Follows left (settled result cursor forward) (.done result) := by
  cases result with
  | error e => exact .failure
  | ok x => exact .value unread

theorem Barren.of_error {reading : Reading α start} {e : EvaluationError}
    (failed : reading.result = .error e) : Barren (.done reading) := by
  obtain ⟨result, cursor, forward⟩ := reading
  cases failed
  exact .failure

/-! ## What a run of them comes to -/

/-- Whoever answers the calls, a reading comes to what it follows comes to. -/
theorem Follows.run {m : Type → Type} [Monad m] [LawfulMonad m] (answer : Call → m CallResult)
    {p : Reader α start} {q : Interaction (Except EvaluationError α)} (follows : Follows left p q) :
    (Reading.result <$> Interaction.run (fun request _ => answer request) p) =
      q.run fun request _ => answer request := by
  induction follows with
  | value unread => simp [Interaction.run]
  | failure => simp [Interaction.run]
  | call _ ih => simp [Interaction.run, ih]

variable (answers : Call → CallResult)

theorem run_since (p : Reader α start) {earlier : Cursor}
    (le : start.ahead.length ≤ earlier.ahead.length) :
    ((p.since earlier le).run (m := Id) fun request _ => answers request).result =
        (p.run (m := Id) fun request _ => answers request).result ∧
      ((p.since earlier le).run (m := Id) fun request _ => answers request).cursor =
        (p.run (m := Id) fun request _ => answers request).cursor := by
  induction p with
  | done reading => exact ⟨rfl, rfl⟩
  | call request site resume ih => exact ih _

/-- A value is left where the last reading on the way leaves it. -/
theorem run_andThen_cursor {p : Reader α start}
    {next : (x : α) → (c : Cursor) → c.ahead.length ≤ start.ahead.length → Reader β c}
    {P : Cursor → Prop}
    (last : ∀ x c le y, ((next x c le).run (m := Id) fun request _ => answers request).result = .ok y →
      P ((next x c le).run (m := Id) fun request _ => answers request).cursor)
    {y : β}
    (value : ((p.andThen next).run (m := Id) fun request _ => answers request).result = .ok y) :
    P ((p.andThen next).run (m := Id) fun request _ => answers request).cursor := by
  induction p with
  | done reading =>
    obtain ⟨result, c, le⟩ := reading
    cases result with
    | error e => exact nomatch value
    | ok x =>
      obtain ⟨sameResult, sameCursor⟩ := run_since answers (next x c le) le
      exact sameCursor ▸ last x c le y (sameResult ▸ value)
  | call request site resume ih => exact ih _ value

/-- Whatever callables keep, a barren reading comes to no value. -/
theorem Barren.run_state {σ : Type} (answer : Call → StateM σ CallResult) {p : Reader α start}
    (barren : Barren p) (s : σ) (x : α) :
    ((p.run fun request _ => answer request).run s).1.result ≠ .ok x := by
  induction barren generalizing s with
  | failure => exact nofun
  | call _ ih => exact ih _ _

theorem Barren.run {p : Reader α start} (barren : Barren p) (x : α) :
    (p.run (m := Id) fun request _ => answers request).result ≠ .ok x := by
  induction barren with
  | failure => exact nofun
  | call _ ih => exact ih _

end Calculator.Reader
