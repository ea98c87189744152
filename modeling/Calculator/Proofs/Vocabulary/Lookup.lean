import Calculator.Proofs.Vocabulary.WellFormed

/-!
# A table is what it holds

Every request has its effect on what is found under each name. A well-formed table is
settled by that alone: its listing is the one sorted list of what it holds, whichever
requests led to it.
-/
namespace Calculator

namespace Table

variable {α : Type} {s t u : Table α} {name other : String} {declaration : α}

theorem precedes_irrefl (a : String) : ¬ Precedes a a := by
  rintro (longer | ⟨-, less⟩)
  · exact lt_irrefl _ longer
  · exact lt_irrefl _ less

/-! ## What is found -/

/-- In a sorted listing every entry is found under its name. -/
theorem find?_of_mem {entries : List (String × α)}
    (sorted : entries.Pairwise fun a b => Precedes a.1 b.1) {entry : String × α}
    (listed : entry ∈ entries) : entries.find? (fun other => other.1 = entry.1) = some entry := by
  induction entries with
  | nil => exact nomatch listed
  | cons first rest ih =>
    obtain ⟨before, others⟩ := List.pairwise_cons.1 sorted
    rcases List.mem_cons.1 listed with rfl | behind
    · exact List.find?_cons_of_pos (by simp)
    · have apart : first.1 ≠ entry.1 := fun same =>
        precedes_irrefl first.1 (same ▸ before entry behind)
      rw [List.find?_cons_of_neg (by simpa using apart)]
      exact ih others behind

theorem WellFormed.find?_eq_some_iff (wellFormed : t.WellFormed) :
    t.find? name = some declaration ↔ (name, declaration) ∈ t.entries := by
  rw [find?, Option.map_eq_some_iff]
  constructor
  · rintro ⟨entry, found, rfl⟩
    have named : entry.1 = name := by simpa using List.find?_some found
    rw [← named]
    exact List.mem_of_find?_eq_some found
  · exact fun listed => ⟨_, find?_of_mem wellFormed.1 listed, rfl⟩

/-- One thing is declared under a name. -/
theorem WellFormed.unique (wellFormed : t.WellFormed) {other : α}
    (listed : (name, declaration) ∈ t.entries) (others : (name, other) ∈ t.entries) :
    declaration = other := by
  rw [← wellFormed.find?_eq_some_iff] at listed others
  exact Option.some.inj (listed.symm.trans others)

/-- Well-formed tables that hold the same are listed the same. -/
theorem WellFormed.ext (first : s.WellFormed) (second : t.WellFormed) (kind : s.kind = t.kind)
    (same : ∀ name, s.find? name = t.find? name) : s = t := by
  have irrefl : Std.Irrefl fun a b : String × α => Precedes a.1 b.1 :=
    ⟨fun entry => precedes_irrefl entry.1⟩
  have antisymm : Std.Antisymm fun a b : String × α => Precedes a.1 b.1 :=
    ⟨fun a b before after => absurd (before.trans after) (precedes_irrefl a.1)⟩
  have entries : s.entries = t.entries := by
    refine first.1.eq_of_mem_iff second.1 fun entry => ?_
    rw [← first.find?_eq_some_iff, ← second.find?_eq_some_iff, same]
  obtain ⟨_, _⟩ := s
  obtain ⟨_, _⟩ := t
  cases kind
  cases entries
  rfl

/-! ## What a request changes -/

theorem find?_insert_of_ne {entries : List (String × α)} (apart : other ≠ name) :
    (insert name declaration entries).find? (fun entry => entry.1 = other) =
      entries.find? fun entry => entry.1 = other := by
  induction entries with
  | nil => simp [insert, Ne.symm apart]
  | cons entry rest ih =>
    rw [insert]
    split
    · rename_i same
      simp [same, Ne.symm apart]
    · split
      · simp [Ne.symm apart]
      · rw [List.find?_cons, List.find?_cons, ih]

theorem find?_define (t : Table α) (name : String) (declaration : α) (other : String) :
    (t.define name declaration).find? other =
      if other = name then some declaration else t.find? other := by
  by_cases same : other = name
  · rw [if_pos same, same, find?_define_self]
  · rw [if_neg same, find?, define, find?_insert_of_ne same, find?]

theorem find?_of_unregister (unregistered : t.unregister name = .ok (declaration, u))
    (other : String) : u.find? other = if other = name then none else t.find? other := by
  obtain ⟨-, rfl⟩ := of_unregister unregistered
  rw [find?, List.find?_filter, find?]
  by_cases same : other = name
  · rw [if_pos same, Option.map_eq_none_iff, List.find?_eq_none]
    simp [same]
  · rw [if_neg same]
    congr 2
    funext entry
    by_cases found : entry.1 = other
    · simp [found, same]
    · simp [found]

/-- Of two tables that are copied into one another, one has the say where both hold a name. -/
theorem WellFormed.find?_copyInto (wellFormed : s.WellFormed) (target : Table α)
    (overwrite : Bool) (name : String) :
    (s.copyInto target overwrite).find? name =
      if overwrite then (s.find? name).or (target.find? name)
      else (target.find? name).or (s.find? name) := by
  have sorted := wellFormed.1
  have found : s.find? name = (s.entries.find? fun entry => entry.1 = name).map (·.2) := rfl
  rw [Table.copyInto, found]
  generalize s.entries = entries at sorted
  induction entries generalizing target with
  | nil => simp
  | cons entry rest ih =>
    obtain ⟨before, others⟩ := List.pairwise_cons.1 sorted
    rw [List.foldl_cons, ih _ others]
    by_cases same : entry.1 = name
    · -- The name is not listed again behind its own entry.
      have missing : rest.find? (fun other => other.1 = name) = none := by
        rw [List.find?_eq_none]
        intro other behind found
        have again : other.1 = entry.1 := by simpa [same] using found
        exact precedes_irrefl entry.1 (again ▸ before other behind)
      cases overwrite with
      | true => simp [same, missing, find?_define]
      | false =>
        cases found : target.find? name <;> simp [same, missing, contains, found, find?_define]
    · have kept : (if target.contains entry.1 && !overwrite then target
          else target.define entry.1 entry.2).find? name = target.find? name := by
        split
        · rfl
        · rw [find?_define, if_neg (Ne.symm same)]
      rw [kept, List.find?_cons_of_neg (by simpa using same)]

theorem get_eq_ok_iff : t.get name = .ok declaration ↔ t.find? name = some declaration := by
  rw [get]
  cases t.find? name <;> simp

/-- A copy into an empty table is the table itself. -/
theorem Reachable.copyInto_empty {kind : Kind} (reachable : t.Reachable kind) :
    t.copyInto (.empty kind) true = t := by
  have copied : (t.copyInto (.empty kind) true).Reachable kind :=
    Reachable.empty.copyInto reachable.wellFormed true
  refine copied.wellFormed.ext reachable.wellFormed ?_ fun name => ?_
  · rw [copied.kind_eq, reachable.kind_eq]
  · rw [reachable.wellFormed.find?_copyInto, if_pos rfl]
    exact Option.or_none

/-- Tables of one kind are the same if every declaration that one holds is held by the other. -/
theorem Reachable.ext {kind : Kind} {β : Type} {embed : α → β}
    (injective : Function.Injective embed) (first : s.Reachable kind) (second : t.Reachable kind)
    (same : ∀ name declaration, (s.get name).map embed = .ok (embed declaration) ↔
      (t.get name).map embed = .ok (embed declaration)) : s = t := by
  have held : ∀ (u : Table α) name declaration,
      (u.get name).map embed = .ok (embed declaration) ↔ u.find? name = some declaration := by
    intro u name declaration
    rw [← get_eq_ok_iff]
    cases u.get name <;> simp [Except.map, injective.eq_iff]
  refine first.wellFormed.ext second.wellFormed ?_ fun name => Option.ext fun declaration => ?_
  · rw [first.kind_eq, second.kind_eq]
  · rw [← held, ← held, same]

end Table

/-! ## Vocabularies -/

namespace Vocabulary

/-- Whether two vocabularies hold the same declaration, or none, under each name of each kind. -/
def SameDeclarations (v w : Vocabulary) : Prop :=
  ∀ kind name declaration, v.get kind name = .ok declaration ↔ w.get kind name = .ok declaration

variable {v w : Vocabulary}

/-- A vocabulary is settled by its declarations, whichever requests led to it. -/
theorem Reachable.eq_of_same (first : v.Reachable) (second : w.Reachable)
    (same : v.SameDeclarations w) : v = w := by
  have left := first.tables
  have right := second.tables
  have constants : v.constants = w.constants := by
    have injective : Function.Injective Declaration.constant := fun _ _ => Declaration.constant.inj
    exact left.constants.ext injective right.constants fun name x => same .constant name (.constant x)
  have functions : v.functions = w.functions := by
    have injective : Function.Injective Declaration.function := fun _ _ => Declaration.function.inj
    exact left.functions.ext injective right.functions fun name f => same .function name (.function f)
  have operators : v.operators = w.operators := by
    have injective : Function.Injective Declaration.operator := fun _ _ => Declaration.operator.inj
    exact left.operators.ext injective right.operators fun name op => same .operator name (.operator op)
  obtain ⟨_, _, _⟩ := v
  obtain ⟨_, _, _⟩ := w
  cases constants
  cases functions
  cases operators
  rfl

/-- A copy of a vocabulary is the vocabulary itself. -/
theorem Reachable.clone_eq (reachable : v.Reachable) : v.clone = v := by
  have tables := reachable.tables
  rw [Vocabulary.clone, Vocabulary.copyTo]
  dsimp only [Vocabulary.empty]
  rw [tables.constants.copyInto_empty, tables.functions.copyInto_empty,
    tables.operators.copyInto_empty]

end Vocabulary

end Calculator
