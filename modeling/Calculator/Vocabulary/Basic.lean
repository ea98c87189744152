import Calculator.Vocabulary.Table

/-!
The names that an expression may use: one table each for constants, functions
and operators. A frozen vocabulary is a snapshot that can only be read.
-/
namespace Calculator

/-- The declared constants, functions and operators. -/
structure Vocabulary where
  constants : Table Float
  functions : Table Function
  operators : Table Operator

/-- Declarations of one kind under their names, in turn. -/
inductive Entries where
  | constants (entries : List (String × Float))
  | functions (entries : List (String × Function))
  | operators (entries : List (String × Operator))

def Entries.kind : Entries → Kind
  | .constants _ => .constant
  | .functions _ => .function
  | .operators _ => .operator

namespace Vocabulary

def empty : Vocabulary := ⟨Table.empty .constant, Table.empty .function, Table.empty .operator⟩

/-- The operators of one tier, longest name first. -/
def operatorsOf (v : Vocabulary) (tier : Tier) : List (String × Operator) :=
  v.operators.entriesWhere fun op => op.tier = tier

/-- The vocabulary with a declaration in the table of its kind. -/
def declare (v : Vocabulary) (name : String) : Declaration → Except NameError Vocabulary
  | .constant value => (v.constants.register name value).map ({ v with constants := · })
  | .function f => (v.functions.register name f).map ({ v with functions := · })
  | .operator op => (v.operators.register name op).map ({ v with operators := · })

/-- The vocabulary without a name of the given kind, and what it was declared as. -/
def remove (v : Vocabulary) (kind : Kind) (name : String) :
    Except NameError (Declaration × Vocabulary) :=
  match kind with
  | .constant =>
    (v.constants.unregister name).map fun (value, t) => (.constant value, { v with constants := t })
  | .function =>
    (v.functions.unregister name).map fun (f, t) => (.function f, { v with functions := t })
  | .operator =>
    (v.operators.unregister name).map fun (op, t) => (.operator op, { v with operators := t })

/-- How far a series of declarations came. -/
structure Declared where
  vocabulary : Vocabulary
  /-- The names that were declared, in turn. -/
  accepted : List String
  /-- The reason why the series stopped early. -/
  failure : Option NameError

/-- The vocabulary with a series of declarations of one kind, up to the first
    that is refused. -/
def declareAll (v : Vocabulary) : Entries → Declared
  | .constants entries =>
    let done := v.constants.registerAll entries
    ⟨{ v with constants := done.table }, done.accepted, done.failure⟩
  | .functions entries =>
    let done := v.functions.registerAll entries
    ⟨{ v with functions := done.table }, done.accepted, done.failure⟩
  | .operators entries =>
    let done := v.operators.registerAll entries
    ⟨{ v with operators := done.table }, done.accepted, done.failure⟩

/-- The names of one kind, longest first. -/
def names (v : Vocabulary) : Kind → List String
  | .constant => v.constants.names
  | .function => v.functions.names
  | .operator => v.operators.names

/-- The declaration of a name of one kind, or the reason why there is none. -/
def get (v : Vocabulary) (kind : Kind) (name : String) : Except NameError Declaration :=
  match kind with
  | .constant => (v.constants.get name).map .constant
  | .function => (v.functions.get name).map .function
  | .operator => (v.operators.get name).map .operator

/-- The target with every declaration of the source. A name that the target has
    is replaced if `overwrite` is set and left alone otherwise. -/
def copyTo (source target : Vocabulary) (overwrite : Bool) : Vocabulary where
  constants := source.constants.copyInto target.constants overwrite
  functions := source.functions.copyInto target.functions overwrite
  operators := source.operators.copyInto target.operators overwrite

def clone (v : Vocabulary) : Vocabulary := v.copyTo empty true

end Vocabulary

/-- A snapshot of a vocabulary that can only be read. -/
structure FrozenVocabulary where
  contents : Vocabulary

namespace FrozenVocabulary

/-- The snapshot that copies a vocabulary. -/
def snapshot (v : Vocabulary) : FrozenVocabulary := ⟨v.copyTo .empty true⟩

/-- The snapshot that takes a vocabulary over as it is. -/
def ofVocabulary (v : Vocabulary) : FrozenVocabulary := ⟨v⟩

def thaw (f : FrozenVocabulary) : Vocabulary := f.contents.clone

def clone (f : FrozenVocabulary) : FrozenVocabulary := ⟨f.contents.clone⟩

end FrozenVocabulary

/-- The snapshot of a vocabulary as it is now. -/
def Vocabulary.freeze (v : Vocabulary) : FrozenVocabulary := .snapshot v

end Calculator
