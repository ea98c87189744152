import Calculator.Declaration.Recipe
import Calculator.Evaluation.Run

/-!
Changes of a vocabulary while the journal is kept. Each name that is declared or
removed leaves a line; a refused request leaves none.
-/
namespace Calculator

/-- A change of a vocabulary. -/
inductive Change where
  | declare (name : String) (blueprint : Blueprint)
  | declareAll (kind : Kind) (entries : List (String × Blueprint))
  | remove (kind : Kind) (name : String)

/-- The declarations of one kind among those of any. -/
def Entries.ofDeclarations (kind : Kind) (entries : List (String × Declaration)) : Entries :=
  match kind with
  | .constant => .constants <| entries.filterMap fun (name, declaration) =>
    match declaration with
    | .constant value => some (name, value)
    | _ => none
  | .function => .functions <| entries.filterMap fun (name, declaration) =>
    match declaration with
    | .function f => some (name, f)
    | _ => none
  | .operator => .operators <| entries.filterMap fun (name, declaration) =>
    match declaration with
    | .operator op => some (name, op)
    | _ => none

/-- What a change came to. -/
structure Changed where
  vocabulary : Vocabulary
  /-- The declaration that was removed. -/
  removed : Option Declaration
  failure : Option NameError

namespace Change

def kind : Change → Kind
  | .declare _ blueprint => blueprint.kind
  | .declareAll kind _ => kind
  | .remove kind _ => kind

/-- The declaration of a blueprint, with a cell of its own. -/
def build (blueprint : Blueprint) (m : Machine) : Declaration × Machine :=
  let (cell, next) := m.newCell
  (blueprint.declaration cell, next)

/-- The declarations of blueprints, each with a cell of its own. -/
def buildAll (m : Machine) :
    List (String × Blueprint) → List (String × Declaration) × Machine
  | [] => ([], m)
  | (name, blueprint) :: rest =>
    let (declaration, next) := build blueprint m
    let (others, last) := buildAll next rest
    ((name, declaration) :: others, last)

/-- Notes that names were declared. -/
def noteDeclared (kind : Kind) (names : List String) (m : Machine) : Machine :=
  names.foldl
    (fun m name => m.note .debugging "REG" fun _ => "register " ++ kind.name ++ s!" '{name}'") m

/-- Notes that a name was removed. -/
def noteRemoved (kind : Kind) (name : String) (m : Machine) : Machine :=
  m.note .debugging "REG" fun _ => "unregister " ++ kind.name ++ s!" '{name}'"

/-- The vocabulary after a change, and the machine after its lines. A refused
    request keeps the vocabulary, except for what came before it in a series. -/
def apply (change : Change) (v : Vocabulary) (m : Machine) : Changed × Machine :=
  match change with
  | .declare name blueprint =>
    let (declaration, m) := build blueprint m
    match v.declare name declaration with
    | .error e => (⟨v, none, some e⟩, m)
    | .ok next => (⟨next, none, none⟩, noteDeclared blueprint.kind [name] m)
  | .declareAll kind entries =>
    let (declarations, m) := buildAll m entries
    let done := v.declareAll (.ofDeclarations kind declarations)
    (⟨done.vocabulary, none, done.failure⟩, noteDeclared kind done.accepted m)
  | .remove kind name =>
    match v.remove kind name with
    | .error e => (⟨v, none, some e⟩, m)
    | .ok (declaration, next) => (⟨next, some declaration, none⟩, noteRemoved kind name m)

/-- The vocabulary after a series of changes, up to the first that is refused. -/
def applyAll (v : Vocabulary) (m : Machine) :
    List Change → Except NameError Vocabulary × Machine
  | [] => (.ok v, m)
  | change :: rest =>
    let (done, m) := change.apply v m
    match done.failure with
    | some e => (.error e, m)
    | none => applyAll done.vocabulary m rest

end Change

end Calculator
