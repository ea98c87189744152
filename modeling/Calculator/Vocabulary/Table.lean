import Calculator.Declaration.Basic
import Calculator.Text.Character

/-!
A table of declared names. Its entries are listed longest name first, so that a
reader who tries the names in turn finds the longest one that fits; names of one
length stand in their own order. `WellFormed` says what every operation keeps.
-/
namespace Calculator

/-- Why a table refused a request. -/
inductive NameError where
  | emptyName
  | reservedCharacter (name : String) (character : Char)
  | duplicate (kind : Kind) (name : String)
  | notFound (kind : Kind) (name : String)
  /-- The name is there, but its declaration is not as asked for. -/
  | conditionMismatch (kind : Kind) (name : String)
deriving DecidableEq

/-- Exact text of a refused request. -/
def NameError.message : NameError → String
  | .emptyName => "Declaration names must not be empty"
  | .reservedCharacter name character =>
    s!"Name '{name}' contains the reserved character '{character}'"
  | .duplicate kind name => kind.name ++ s!" '{name}' is already declared"
  | .notFound kind name => "No " ++ kind.name ++ s!" named '{name}'"
  | .conditionMismatch kind name =>
    "The " ++ kind.name ++ s!" '{name}' exists but does not satisfy the condition"

/-- Declarations of one kind under their names. -/
structure Table (α : Type) where
  kind : Kind
  /-- Every name with its declaration, longest name first. -/
  entries : List (String × α)

namespace Table

variable {α : Type}

/-- Whether a name is listed before another: longer names first, and names of one
    length in their own order. -/
def Precedes (a b : String) : Prop := b.length < a.length ∨ (a.length = b.length ∧ a < b)

instance (a b : String) : Decidable (Precedes a b) :=
  inferInstanceAs (Decidable (_ ∨ _))

/-- Whether a name may be declared. -/
def Declarable (name : String) : Prop :=
  name ≠ "" ∧ ∀ c ∈ name.toList, Character.isReserved c = false

/-- What holds of every table that was built from declarations. -/
def WellFormed (t : Table α) : Prop :=
  t.entries.Pairwise (fun a b => Precedes a.1 b.1) ∧ ∀ entry ∈ t.entries, Declarable entry.1

def empty (kind : Kind) : Table α := ⟨kind, []⟩

def size (t : Table α) : Nat := t.entries.length

def isEmpty (t : Table α) : Bool := t.entries.isEmpty

/-- Every name, longest first. -/
def names (t : Table α) : List String := t.entries.map (·.1)

def find? (t : Table α) (name : String) : Option α :=
  (t.entries.find? fun entry => entry.1 = name).map (·.2)

def contains (t : Table α) (name : String) : Bool := (t.find? name).isSome

/-- The declaration under a name, or the reason why there is none. -/
def get (t : Table α) (name : String) : Except NameError α :=
  match t.find? name with
  | some declaration => .ok declaration
  | none => .error (.notFound t.kind name)

/-- The declaration under a name, which must also meet a condition. -/
def getWhere (t : Table α) (name : String) (condition : α → Bool) : Except NameError α :=
  match t.get name with
  | .error e => .error e
  | .ok declaration =>
    if condition declaration then .ok declaration else .error (.conditionMismatch t.kind name)

/-- The entries whose declarations meet a condition, longest name first. -/
def entriesWhere (t : Table α) (condition : α → Bool) : List (String × α) :=
  t.entries.filter fun entry => condition entry.2

/-- Puts a declaration at its place in the listing, over one of the same name. -/
def insert (name : String) (declaration : α) : List (String × α) → List (String × α)
  | [] => [(name, declaration)]
  | entry :: rest =>
    if entry.1 = name then (name, declaration) :: rest
    else if Precedes name entry.1 then (name, declaration) :: entry :: rest
    else entry :: insert name declaration rest

/-- The table with a declaration under a name, whatever was there before. The
    name is not looked at: it comes from another table or is known to be right. -/
def define (t : Table α) (name : String) (declaration : α) : Table α :=
  { t with entries := insert name declaration t.entries }

/-- The first reason why a name cannot be newly declared. -/
def refusal? (t : Table α) (name : String) : Option NameError :=
  if name = "" then some .emptyName
  else
    match Character.firstReserved? name with
    | some character => some (.reservedCharacter name character)
    | none => if t.contains name then some (.duplicate t.kind name) else none

/-- The table with a declaration under a new and valid name. -/
def register (t : Table α) (name : String) (declaration : α) : Except NameError (Table α) :=
  match t.refusal? name with
  | some e => .error e
  | none => .ok (t.define name declaration)

/-- How far a series of declarations came. -/
structure Registered (α : Type) where
  table : Table α
  /-- The names that were declared, in turn. -/
  accepted : List String
  /-- The reason why the series stopped early. -/
  failure : Option NameError

/-- The table with a series of declarations, up to the first that is refused. -/
def registerAll (t : Table α) : List (String × α) → Registered α
  | [] => ⟨t, [], none⟩
  | (name, declaration) :: rest =>
    match t.register name declaration with
    | .error e => ⟨t, [], some e⟩
    | .ok next =>
      let later := next.registerAll rest
      { later with accepted := name :: later.accepted }

/-- The table without a name, and the declaration that was under it. -/
def unregister (t : Table α) (name : String) : Except NameError (α × Table α) :=
  match t.find? name with
  | none => .error (.notFound t.kind name)
  | some declaration =>
    .ok (declaration, { t with entries := t.entries.filter fun entry => entry.1 ≠ name })

/-- The target with every entry of the source. A name that the target has is
    replaced if `overwrite` is set and left alone otherwise. -/
def copyInto (source target : Table α) (overwrite : Bool) : Table α :=
  source.entries.foldl
    (fun t entry => if t.contains entry.1 && !overwrite then t else t.define entry.1 entry.2)
    target

/-! ## What the reasons of a refusal say -/

theorem find?_insert_self (name : String) (declaration : α) (entries : List (String × α)) :
    (insert name declaration entries).find? (fun entry => entry.1 = name) =
      some (name, declaration) := by
  induction entries with
  | nil => simp [insert]
  | cons entry rest ih =>
    unfold insert
    split
    · simp
    · rename_i other
      split
      · simp
      · simp [other, ih]

theorem find?_define_self (t : Table α) (name : String) (declaration : α) :
    (t.define name declaration).find? name = some declaration := by
  simp [find?, define, find?_insert_self]

theorem refusal?_eq_none_iff (t : Table α) (name : String) :
    t.refusal? name = none ↔ Declarable name ∧ t.contains name = false := by
  unfold refusal? Declarable
  rw [← Character.firstReserved?_eq_none_iff]
  by_cases h : name = ""
  · simp [h]
  · cases Character.firstReserved? name <;> simp [h]

end Table

end Calculator
