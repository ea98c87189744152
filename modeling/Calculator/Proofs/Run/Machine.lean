import Calculator.Evaluation.Run
import Mathlib

/-!
# What a step does to the machine

A bisimulation relates machines between which no step can tell. Positions and the
journal are never asked for, so machines that differ in them alone are related. Every
step inside an evaluation keeps the evaluations in progress, and moves the innermost
one only; what entering an evaluation changes is undone by leaving it.
-/
namespace Calculator

namespace Machine

/-- No step tells related machines apart, and each leaves them related. -/
structure Bisimulation (related : Machine → Machine → Prop) : Prop where
  active {m n : Machine} : related m n → m.active = n.active
  load {m n : Machine} : related m n → ∀ cell, m.load cell = n.load cell
  drawn {m n : Machine} : related m n → m.draw.1 = n.draw.1
  draw {m n : Machine} : related m n → related m.draw.2 n.draw.2
  store {m n : Machine} : related m n → ∀ cell x, related (m.store cell x) (n.store cell x)
  note {m n : Machine} : related m n → ∀ severity category message,
    related (m.note severity category message) (n.note severity category message)
  enter {m n : Machine} : related m n → ∀ name expression,
    related (m.enter name expression) (n.enter name expression)
  moveTo {m n : Machine} : related m n → ∀ c, related (m.moveTo c) (n.moveTo c)
  leave {m n : Machine} : related m n → related m.leave n.leave

/-- Whatever numbers are to come, each is from zero up to one. -/
theorem draw_bounded (m : Machine) : 0 ≤ m.draw.1 ∧ m.draw.1 < 1 := m.draws.bounded 0

theorem bisimulation_eq : Bisimulation (· = ·) where
  active := congrArg Machine.active
  load same cell := congrArg (load · cell) same
  drawn same := congrArg (fun m : Machine => m.draw.1) same
  draw same := congrArg (fun m : Machine => m.draw.2) same
  store same cell x := congrArg (store · cell x) same
  note same severity category message := congrArg (note · severity category message) same
  enter same name expression := congrArg (enter · name expression) same
  moveTo same c := congrArg (moveTo · c) same
  leave := congrArg leave

/-- Machines with the same evaluations in progress, for which callables keep the same. -/
structure Alike (m n : Machine) : Prop where
  active : m.active = n.active
  cells : m.cells = n.cells
  draws : m.draws = n.draws

@[simp] theorem moveTo_active (m : Machine) (c : Cursor) : (m.moveTo c).active = m.active := by
  unfold moveTo
  split <;> rfl

@[simp] theorem moveTo_cells (m : Machine) (c : Cursor) : (m.moveTo c).cells = m.cells := by
  unfold moveTo
  split <;> rfl

@[simp] theorem moveTo_draws (m : Machine) (c : Cursor) : (m.moveTo c).draws = m.draws := by
  unfold moveTo
  split <;> rfl

@[simp] theorem leave_active (m : Machine) : m.leave.active = m.active.tail := by
  unfold leave
  split
  · rename_i progress
    rw [progress, List.tail_nil]
  · rename_i progress
    rw [progress, List.tail_cons]

@[simp] theorem leave_cells (m : Machine) : m.leave.cells = m.cells := by
  unfold leave
  split <;> rfl

@[simp] theorem leave_draws (m : Machine) : m.leave.draws = m.draws := by
  unfold leave
  split <;> rfl

/-- Neither positions nor the journal have a say in what happens. -/
theorem bisimulation_alike : Bisimulation Alike where
  active same := same.active
  load same cell := congrArg (List.getD · cell 0) same.cells
  drawn same := congrArg Draws.first same.draws
  draw same := ⟨same.active, same.cells, congrArg Draws.rest same.draws⟩
  store same cell x := ⟨same.active, congrArg (List.set · cell x) same.cells, same.draws⟩
  note same _ _ _ := ⟨same.active, same.cells, same.draws⟩
  enter same name _ := ⟨congrArg (name :: ·) same.active, same.cells, same.draws⟩
  moveTo same c := by
    constructor
    · simp [same.active]
    · simp [same.cells]
    · simp [same.draws]
  leave same := by
    constructor
    · simp [same.active]
    · simp [same.cells]
    · simp [same.draws]

/-! ## Evaluations in progress are left as they were -/

/-- The same evaluations are in progress, and those of `outer` are where they were. -/
structure Keeps (outer : List String) (before after : Machine) : Prop where
  active : after.active = before.active
  cursors : ∀ name ∈ outer, after.cursors name = before.cursors name

variable {outer : List String} {m n k : Machine}

theorem Keeps.refl (outer : List String) (m : Machine) : m.Keeps outer m := ⟨rfl, fun _ _ => rfl⟩

theorem Keeps.trans (first : m.Keeps outer n) (second : n.Keeps outer k) : m.Keeps outer k where
  active := second.active.trans first.active
  cursors name within := (second.cursors name within).trans (first.cursors name within)

theorem Keeps.mono {inner : List String} (keeps : m.Keeps outer n) (fewer : inner ⊆ outer) :
    m.Keeps inner n := ⟨keeps.active, fun name within => keeps.cursors name (fewer within)⟩

theorem keeps_draw (m : Machine) : m.Keeps outer m.draw.2 := ⟨rfl, fun _ _ => rfl⟩

/-- The innermost evaluation moves, and the outer ones stay. -/
theorem keeps_moveTo {name : String} (progress : m.active = name :: outer) (free : name ∉ outer)
    (c : Cursor) : m.Keeps outer (m.moveTo c) := by
  refine ⟨moveTo_active m c, fun other within => ?_⟩
  have apart : other ≠ name := by
    rintro rfl
    exact free within
  simp [moveTo, progress, place, apart]

/-- What entering and leaving change is undone behind both. -/
theorem keeps_leave {name expression : String} (free : name ∉ m.active)
    (keeps : (m.enter name expression).Keeps m.active n) : m.Keeps m.active n.leave := by
  have progress : n.active = name :: m.active := keeps.active
  refine ⟨by simp [progress], fun other within => ?_⟩
  have apart : other ≠ name := by
    rintro rfl
    exact free within
  have inside := keeps.cursors other within
  simp only [enter, place, apart, if_false] at inside
  simpa [leave, progress, place, apart] using inside

theorem leave_cursors {name : String} (progress : m.active = name :: outer) :
    m.leave.cursors name = .empty := by
  simp [leave, progress, place]

/-- The machine on which an accepted evaluation reads its expression. -/
def opening (m : Machine) (name expression : String) : Machine :=
  (m.enter name expression).noteEnter expression

/-- The machine on which the callable of a call runs. -/
def calling (m : Machine) (request : Call) (site : Site) : Machine :=
  (m.moveTo site.cursor).note .tracing "GRAM" fun _ => request.describe

/-- The machine after an expression was settled: a failure that became a value is noted. -/
def settled (m : Machine) (settings : Settings) : EvaluationResult → Machine
  | .ok _ => m
  | .error e =>
    if settings.isSilent then
      m.note .debugging "EVAL" fun _ => "failure masked as NaN: " ++ e.message
    else m

/-- The machine after a rejected evaluation. -/
def rejected (m : Machine) (settings : Settings) (expression : String) : Machine :=
  (m.note .warning "EVAL" fun _ => s!"rejected nested evaluate of '{expression}'").settled settings
    (.error .reentrant)

/-- The machine after an evaluation whose expression came to `raw`. -/
def exited (m : Machine) (settings : Settings) (raw : EvaluationResult) : Machine :=
  (m.leave.noteExit fun _ => Run.outcomeText raw).settled settings raw

theorem settled_eq (m : Machine) (settings : Settings) (raw : EvaluationResult) :
    ∃ journal, m.settled settings raw = { m with journal := journal } := by
  unfold settled
  split
  · exact ⟨m.journal, rfl⟩
  · split
    · exact ⟨_, rfl⟩
    · exact ⟨m.journal, rfl⟩

/-- A rejected evaluation leaves lines in the journal and nothing else. -/
theorem rejected_eq (m : Machine) (settings : Settings) (expression : String) :
    ∃ journal, m.rejected settings expression = { m with journal := journal } :=
  settled_eq _ settings _

theorem exited_eq (m : Machine) (settings : Settings) (raw : EvaluationResult) :
    ∃ journal, m.exited settings raw = { m.leave with journal := journal } :=
  settled_eq _ settings raw

/-- Related machines, each of which has kept what was in progress before. -/
structure Lockstep (related : Machine → Machine → Prop) (outer : List String)
    (before other m n : Machine) : Prop where
  related : related m n
  left : before.Keeps outer m
  right : other.Keeps outer n

section

variable {related : Machine → Machine → Prop} {before other : Machine}

theorem Lockstep.note (holds : Lockstep related outer before other m n)
    (bisimulation : Bisimulation related) (severity : Severity) (category : String)
    (message : Unit → String) :
    Lockstep related outer before other (m.note severity category message)
      (n.note severity category message) where
  related := bisimulation.note holds.related _ _ _
  left := holds.left.trans ⟨rfl, fun _ _ => rfl⟩
  right := holds.right.trans ⟨rfl, fun _ _ => rfl⟩

theorem Lockstep.settled (holds : Lockstep related outer before other m n)
    (bisimulation : Bisimulation related) (settings : Settings) (raw : EvaluationResult) :
    Lockstep related outer before other (m.settled settings raw) (n.settled settings raw) := by
  unfold Machine.settled
  cases raw with
  | ok x => exact holds
  | error e =>
    by_cases silent : settings.isSilent = true
    · simp only [silent, if_true]
      exact holds.note bisimulation _ _ _
    · simpa only [silent, Bool.false_eq_true, if_false] using holds

end

end Machine

end Calculator
