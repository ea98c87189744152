import Calculator.Evaluation.Interaction
import Calculator.Vocabulary.Basic

/-!
Reading a part of an expression: a value or a failure, and the position reached.
A reading carries the proof that it did not move back, so whatever follows one is
again about a shorter text. Names are tried in the order of their listing, and
the first that fits is taken.
-/
namespace Calculator

/-- What reading from `start` came to. -/
structure Reading (α : Type) (start : Cursor) where
  result : Except EvaluationError α
  /-- The position reached, also by a failure. -/
  cursor : Cursor
  forward : cursor.ahead.length ≤ start.ahead.length

namespace Reading

variable {α β : Type}

/-- A value, at the position it leaves. -/
def value {start : Cursor} (x : α) (cursor : Cursor)
    (forward : cursor.ahead.length ≤ start.ahead.length) : Reading α start :=
  ⟨.ok x, cursor, forward⟩

/-- A failure, at the position it leaves. -/
def failure {start : Cursor} (e : EvaluationError) (cursor : Cursor)
    (forward : cursor.ahead.length ≤ start.ahead.length) : Reading α start :=
  ⟨.error e, cursor, forward⟩

/-- The same reading, seen from an earlier position. -/
def since {start : Cursor} (earlier : Cursor) (h : start.ahead.length ≤ earlier.ahead.length)
    (r : Reading α start) : Reading α earlier :=
  ⟨r.result, r.cursor, Nat.le_trans r.forward h⟩

end Reading

/-- A reading that may wait for callables. -/
abbrev Reader (α : Type) (start : Cursor) := Interaction (Reading α start)

namespace Reader

variable {α β : Type}

/-- The reading of a value, without any call. -/
def value {start : Cursor} (x : α) (cursor : Cursor)
    (forward : cursor.ahead.length ≤ start.ahead.length) : Reader α start :=
  .done (.value x cursor forward)

/-- The reading of a failure, without any call. -/
def failure {start : Cursor} (e : EvaluationError) (cursor : Cursor)
    (forward : cursor.ahead.length ≤ start.ahead.length) : Reader α start :=
  .done (.failure e cursor forward)

/-- The reading of an outcome that was settled without any call. -/
def settled {start : Cursor} (result : Except EvaluationError α) (cursor : Cursor)
    (forward : cursor.ahead.length ≤ start.ahead.length) : Reader α start :=
  .done ⟨result, cursor, forward⟩

/-- The same reading, seen from an earlier position. -/
def since {start : Cursor} (earlier : Cursor) (h : start.ahead.length ≤ earlier.ahead.length)
    (p : Reader α start) : Reader α earlier :=
  p.map (·.since earlier h)

/-- Reads on after a value; a failure ends both. -/
def andThen {start : Cursor} (p : Reader α start)
    (next : (x : α) → (c : Cursor) → c.ahead.length ≤ start.ahead.length → Reader β c) :
    Reader β start :=
  p.bind fun r =>
    match r with
    | ⟨.error e, c, forward⟩ => failure e c forward
    | ⟨.ok x, c, forward⟩ => (next x c forward).since start forward

/-- Asks for the answer of a call, by a name that stands at `place`, and reads
    on; the call's failure is one of the reading. -/
def ask {start : Cursor} (place : Nat) (request : Call) (next : Float → Reader α start) :
    Reader α start :=
  .call request ⟨place, start⟩ fun answer =>
    match answer with
    | .error e => failure (request.failure e) start (Nat.le_refl _)
    | .ok x => next x

end Reader

/-- A declared name that was read, and the position after it. -/
structure Taken (α : Type) (start : Cursor) where
  name : String
  declaration : α
  cursor : Cursor
  forward : cursor.ahead.length < start.ahead.length

/-- The first of the entries whose name comes next and leaves a position that
    fits. An empty name comes nowhere. -/
def takeFirst? {α : Type} (start : Cursor) (fits : Cursor → Bool) :
    List (String × α) → Option (Taken α start)
  | [] => none
  | (name, declaration) :: rest =>
    if nonempty : name.toList ≠ [] then
      match accepted : start.accept? name with
      | none => takeFirst? start fits rest
      | some cursor =>
        if fits cursor then
          some ⟨name, declaration, cursor, Cursor.accept?_ahead_lt accepted nonempty⟩
        else takeFirst? start fits rest
    else takeFirst? start fits rest

namespace Vocabulary

/-- The longest operator of a tier that comes next. -/
def takeOperator? (v : Vocabulary) (tier : Tier) (start : Cursor) : Option (Taken Operator start) :=
  takeFirst? start (fun _ => true) (v.operatorsOf tier)

/-- The longest function that comes next with an opening parenthesis behind it,
    which is left to be read. -/
def takeFunction? (v : Vocabulary) (start : Cursor) : Option (Taken Function start) :=
  takeFirst? start (fun c => c.lookahead ["("]) v.functions.entries

/-- The longest constant that comes next. -/
def takeConstant? (v : Vocabulary) (start : Cursor) : Option (Taken Float start) :=
  takeFirst? start (fun _ => true) v.constants.entries

def isFunction (v : Vocabulary) (start : Cursor) : Bool := (v.takeFunction? start).isSome

def isConstant (v : Vocabulary) (start : Cursor) : Bool := (v.takeConstant? start).isSome

end Vocabulary

end Calculator
