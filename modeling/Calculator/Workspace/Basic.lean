import Calculator.Workspace.Change

/-!
A workspace: vocabularies and evaluators under names, and the machine on which
they run. Callables reach other evaluators by these names. Every request gives
its answer and the workspace after it; a request that fails leaves the items as
they were, except where a series of declarations stops early.
-/
namespace Calculator

/-- What a workspace holds under a name. -/
inductive Item where
  | vocabulary (v : Vocabulary)
  | frozenVocabulary (v : FrozenVocabulary)
  | evaluator (e : Evaluator)
  | frozenEvaluator (e : FrozenEvaluator)

namespace Item

/-- The names that an item knows. -/
def names : Item → Vocabulary
  | .vocabulary v => v
  | .frozenVocabulary v => v.contents
  | .evaluator e => e.vocabulary
  | .frozenEvaluator e => e.vocabulary.contents

/-- The evaluator that an item is, as it evaluates. -/
def evaluator? : Item → Option Evaluator
  | .vocabulary _ => none
  | .frozenVocabulary _ => none
  | .evaluator e => some e
  | .frozenEvaluator e => some e.reading

/-- The item with other names, unless its names are fixed. -/
def withNames? (item : Item) (v : Vocabulary) : Option Item :=
  match item with
  | .vocabulary _ => some (.vocabulary v)
  | .evaluator e => some (.evaluator { e with vocabulary := v })
  | .frozenVocabulary _ => none
  | .frozenEvaluator _ => none

def settings? : Item → Option Settings
  | .vocabulary _ => none
  | .frozenVocabulary _ => none
  | .evaluator e => some e.settings
  | .frozenEvaluator e => some e.settings

/-- The item with other settings, if they are not fixed. -/
def withSettings? (item : Item) (settings : Settings) : Option Item :=
  match item with
  | .evaluator e => some (.evaluator { e with settings := settings })
  | .vocabulary _ => none
  | .frozenVocabulary _ => none
  | .frozenEvaluator _ => none

def clone : Item → Item
  | .vocabulary v => .vocabulary v.clone
  | .frozenVocabulary v => .frozenVocabulary v.clone
  | .evaluator e => .evaluator e.clone
  | .frozenEvaluator e => .frozenEvaluator e.clone

/-- A snapshot of an item that can be changed. -/
def freeze? : Item → Option Item
  | .vocabulary v => some (.frozenVocabulary v.freeze)
  | .evaluator e => some (.frozenEvaluator e.freeze)
  | .frozenVocabulary _ => none
  | .frozenEvaluator _ => none

/-- A snapshot that takes a copy of a vocabulary over. -/
def freezeOwned? : Item → Option Item
  | .vocabulary v => some (.frozenVocabulary (.ofVocabulary v.clone))
  | .evaluator e => some (.frozenEvaluator e.freeze)
  | .frozenVocabulary _ => none
  | .frozenEvaluator _ => none

/-- A copy of a snapshot that can be changed. -/
def thaw? : Item → Option Item
  | .frozenVocabulary v => some (.vocabulary v.thaw)
  | .frozenEvaluator e => some (.evaluator e.thaw)
  | .vocabulary _ => none
  | .evaluator _ => none

/-- The evaluator over a copy of a vocabulary; a frozen one over a snapshot. -/
def evaluatorOver? (settings : Settings) : Item → Option Item
  | .vocabulary v => some (.evaluator ⟨settings, v.clone⟩)
  | .frozenVocabulary v => some (.frozenEvaluator ⟨settings, v.clone⟩)
  | .evaluator _ => none
  | .frozenEvaluator _ => none

/-- The evaluator, frozen or not, whose names are copied from an item. -/
def evaluatorFrom (settings : Settings) (frozen : Bool) (item : Item) : Item :=
  if frozen then .frozenEvaluator (.ofSource settings item.names)
  else .evaluator (.ofSource settings item.names)

end Item

/-- Named items and the machine on which they run. -/
structure Workspace where
  items : List (String × Item)
  machine : Machine

namespace Workspace

/-- The workspace without items. -/
def start (threshold : Option Severity) (draws : Draws := .zero) : Workspace :=
  ⟨[], .start threshold draws⟩

def find? (w : Workspace) (name : String) : Option Item := w.items.lookup name

/-- The workspace with an item under a name, in place of any other. -/
def put (w : Workspace) (name : String) (item : Item) : Workspace :=
  { w with items := (name, item) :: w.items.filter fun entry => entry.1 ≠ name }

/-- The evaluators of a workspace under their names. -/
def evaluators (w : Workspace) : Evaluators :=
  w.items.filterMap fun (name, item) => item.evaluator?.map (name, ·)

/-- Runs a computation on the machine of a workspace. -/
def perform {α : Type} (w : Workspace) (run : Run α) : Option (α × Workspace) :=
  (run.run w.machine).map fun (answer, machine) => (answer, { w with machine := machine })

/-- What a callable of the workspace may evaluate. -/
def evaluate (w : Workspace) : String → String → Run (Option EvaluationResult) :=
  Run.evaluate w.evaluators

/-- Calls a function of an item by its name. -/
def call (w : Workspace) (item : Item) (name : String) (arguments : List Float) :
    Option (Except NameError CallResult × Workspace) :=
  match item.names.functions.get name with
  | .error e => some (.error e, w)
  | .ok f => w.perform (Except.ok <$> Run.script w.evaluate (f.call arguments))

/-- Applies an operator of an item by its name. -/
def apply (w : Workspace) (item : Item) (name : String) (x y : Float) :
    Option (Except NameError CallResult × Workspace) :=
  match item.names.operators.get name with
  | .error e => some (.error e, w)
  | .ok op => w.perform (Except.ok <$> Run.script w.evaluate (op.operate x y))

/-- Moves over single characters as far as there are any. -/
def advance (c : Cursor) : (count : Nat) → Cursor
  | 0 => c
  | count + 1 => advance (c.next false).2 count

/-- What reading an expression without an evaluator came to. -/
structure Parsed where
  isFunction : Bool
  isConstant : Bool
  result : EvaluationResult
  cursor : Cursor

/-- Reads an expression with the names of an item, from a position in it. -/
def parse (w : Workspace) (item : Item) (expression : String) (count : Nat) :
    Option (Parsed × Workspace) :=
  let v := item.names
  let start := advance (.ofString expression) count
  w.perform do
    let reading ← (Grammar.expression v start).run (Run.answer w.evaluate)
    pure ⟨v.isFunction start, v.isConstant start, reading.result, reading.cursor⟩

/-- Changes the names of an item. There is no answer if they are fixed. -/
def change (w : Workspace) (name : String) (change : Change) : Option (Changed × Workspace) := do
  let item ← w.find? name
  let (done, machine) := change.apply item.names w.machine
  let next ← item.withNames? done.vocabulary
  pure (done, { w with machine := machine }.put name next)

/-- Puts a frozen evaluator whose names are the standard ones after a series of
    changes, unless one of them is refused. -/
def build (w : Workspace) (name : String) (settings : Settings) (changes : List Change) :
    Except NameError Unit × Workspace :=
  match Change.applyAll Standard.vocabulary w.machine changes with
  | (.error e, machine) => (.error e, { w with machine := machine })
  | (.ok v, machine) =>
    let item := Item.frozenEvaluator ⟨settings, .ofVocabulary v⟩
    (.ok (), { w with machine := machine }.put name item)

/-- Puts an evaluator with the standard names and further declarations, unless
    one of them is refused. -/
def putEvaluator (w : Workspace) (name : String) (settings : Settings)
    (declarations : List (String × Blueprint)) : Except NameError Unit × Workspace :=
  let changes := declarations.map fun (name, blueprint) => Change.declare name blueprint
  match Change.applyAll Standard.vocabulary w.machine changes with
  | (.error e, machine) => (.error e, { w with machine := machine })
  | (.ok v, machine) =>
    (.ok (), { w with machine := machine }.put name (.evaluator ⟨settings, v⟩))

/-- Copies the names of an item to those of another, which must not be fixed. -/
def copyTo (w : Workspace) (source : Item) (target : String) (overwrite : Bool) :
    Option (Vocabulary × Workspace) := do
  let item ← w.find? target
  let v := source.names.copyTo item.names overwrite
  let next ← item.withNames? v
  pure (v, w.put target next)

end Workspace

end Calculator
