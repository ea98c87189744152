import Calculator.Vocabulary.Reachable
import Mathlib

/-!
# Tables stay well-formed

Every request keeps the listing sorted and its names valid, so both hold of the
tables of each vocabulary that a program can come to hold.
-/
namespace Calculator

namespace Table

variable {α : Type}

/-! ## The order of a listing -/

theorem Precedes.trans {a b c : String} (first : Precedes a b) (second : Precedes b c) :
    Precedes a c := by
  rcases first with longer | ⟨same, less⟩
  · rcases second with longer' | ⟨same', -⟩
    · exact .inl (longer'.trans longer)
    · exact .inl (same' ▸ longer)
  · rcases second with longer' | ⟨same', less'⟩
    · exact .inl (same ▸ longer')
    · exact .inr ⟨same.trans same', less.trans less'⟩

/-- Of two names one stands before the other. -/
theorem precedes_of_not {a b : String} (differs : a ≠ b) (later : ¬ Precedes a b) :
    Precedes b a := by
  rw [Precedes, not_or, not_and, Nat.not_lt] at later
  obtain ⟨short, notLess⟩ := later
  rcases Nat.lt_or_eq_of_le short with shorter | same
  · exact .inl shorter
  · exact .inr ⟨same.symm, lt_of_le_of_ne (not_lt.1 (notLess same)) differs.symm⟩

/-! ## Requests -/

theorem mem_insert {name : String} {declaration : α} {entries : List (String × α)}
    {entry : String × α} (listed : entry ∈ insert name declaration entries) :
    entry = (name, declaration) ∨ entry ∈ entries := by
  induction entries with
  | nil => exact .inl (List.mem_singleton.1 listed)
  | cons other rest ih =>
    rw [insert] at listed
    split at listed
    · rcases List.mem_cons.1 listed with same | behind
      · exact .inl same
      · exact .inr (List.mem_cons_of_mem _ behind)
    · split at listed
      · exact List.mem_cons.1 listed
      · rcases List.mem_cons.1 listed with same | behind
        · exact .inr (same ▸ List.mem_cons_self)
        · exact (ih behind).imp_right (List.mem_cons_of_mem _)

/-- A declaration is put at its place in a sorted listing. -/
theorem insert_sorted (name : String) (declaration : α) {entries : List (String × α)}
    (sorted : entries.Pairwise fun a b => Precedes a.1 b.1) :
    (insert name declaration entries).Pairwise fun a b => Precedes a.1 b.1 := by
  induction entries with
  | nil => exact List.pairwise_singleton _ _
  | cons other rest ih =>
    obtain ⟨first, others⟩ := List.pairwise_cons.1 sorted
    rw [insert]
    split
    · rename_i same
      exact List.pairwise_cons.2 ⟨fun entry behind => same ▸ first entry behind, others⟩
    · rename_i differs
      split
      · rename_i precedes
        refine List.pairwise_cons.2 ⟨fun entry behind => ?_, sorted⟩
        rcases List.mem_cons.1 behind with rfl | behind
        · exact precedes
        · exact precedes.trans (first entry behind)
      · rename_i later
        refine List.pairwise_cons.2 ⟨fun entry behind => ?_, ih others⟩
        rcases mem_insert behind with rfl | behind
        · exact precedes_of_not (Ne.symm differs) later
        · exact first entry behind

theorem WellFormed.define {t : Table α} (wellFormed : t.WellFormed) {name : String}
    (declarable : Declarable name) (declaration : α) : (t.define name declaration).WellFormed := by
  refine ⟨insert_sorted name declaration wellFormed.1, fun entry listed => ?_⟩
  rcases mem_insert listed with rfl | listed
  · exact declarable
  · exact wellFormed.2 entry listed

theorem of_unregister {t u : Table α} {name : String} {declaration : α}
    (unregistered : t.unregister name = .ok (declaration, u)) :
    t.find? name = some declaration ∧
      u = { t with entries := t.entries.filter fun entry => entry.1 ≠ name } := by
  rw [unregister] at unregistered
  split at unregistered
  · exact nomatch unregistered
  · cases unregistered
    exact ⟨‹_›, rfl⟩

theorem WellFormed.unregister {t u : Table α} (wellFormed : t.WellFormed) {name : String}
    {declaration : α} (unregistered : t.unregister name = .ok (declaration, u)) : u.WellFormed := by
  obtain ⟨-, rfl⟩ := of_unregister unregistered
  exact ⟨wellFormed.1.filter _, fun entry kept => wellFormed.2 entry (List.mem_filter.1 kept).1⟩

/-! ## Tables that requests lead to -/

/-- What a series of requests leads to: a valid name is declared, whatever was there before,
    or a name is removed. -/
inductive Reachable (kind : Kind) : Table α → Prop where
  | empty : Reachable kind (.empty kind)
  | define {t : Table α} {name : String} (before : Reachable kind t) (declarable : Declarable name)
      (declaration : α) : Reachable kind (t.define name declaration)
  | unregister {t u : Table α} {name : String} {declaration : α} (before : Reachable kind t)
      (unregistered : t.unregister name = .ok (declaration, u)) : Reachable kind u

namespace Reachable

variable {kind : Kind} {t u : Table α}

theorem wellFormed (reachable : t.Reachable kind) : t.WellFormed := by
  induction reachable with
  | empty => exact ⟨.nil, nofun⟩
  | define _ declarable declaration ih => exact ih.define declarable declaration
  | unregister _ unregistered ih => exact ih.unregister unregistered

theorem kind_eq (reachable : t.Reachable kind) : t.kind = kind := by
  induction reachable with
  | empty => rfl
  | define _ _ _ ih => exact ih
  | unregister _ unregistered ih =>
    obtain ⟨-, rfl⟩ := of_unregister unregistered
    exact ih

theorem register (reachable : t.Reachable kind) {name : String} {declaration : α}
    (registered : t.register name declaration = .ok u) : u.Reachable kind := by
  rw [Table.register] at registered
  split at registered
  · exact nomatch registered
  · rename_i accepted
    cases registered
    exact reachable.define ((t.refusal?_eq_none_iff name).1 accepted).1 declaration

theorem registerAll (reachable : t.Reachable kind) (entries : List (String × α)) :
    (t.registerAll entries).table.Reachable kind := by
  induction entries generalizing t with
  | nil => exact reachable
  | cons entry rest ih =>
    obtain ⟨name, declaration⟩ := entry
    rw [Table.registerAll]
    split
    · exact reachable
    · rename_i registered
      exact ih (reachable.register registered)

theorem copyInto {source : Table α} (reachable : t.Reachable kind) (origin : source.WellFormed)
    (overwrite : Bool) : (source.copyInto t overwrite).Reachable kind := by
  have declarable := origin.2
  rw [Table.copyInto]
  generalize source.entries = entries at declarable
  induction entries generalizing t with
  | nil => exact reachable
  | cons entry rest ih =>
    rw [List.foldl_cons]
    refine ih ?_ fun other behind => declarable other (List.mem_cons_of_mem _ behind)
    split
    · exact reachable
    · exact reachable.define (declarable entry List.mem_cons_self) entry.2

end Reachable

end Table

/-! ## Vocabularies -/

theorem exists_of_map_eq_ok {ε α β : Type} {f : α → β} {p : Except ε α} {y : β}
    (mapped : p.map f = .ok y) : ∃ x, p = .ok x ∧ f x = y := by
  cases p with
  | error e => exact nomatch mapped
  | ok x => exact ⟨x, rfl, Except.ok.inj mapped⟩

/-- What holds of every vocabulary that was built from declarations. -/
structure Vocabulary.WellFormed (v : Vocabulary) : Prop where
  constants : v.constants.WellFormed
  functions : v.functions.WellFormed
  operators : v.operators.WellFormed

theorem Vocabulary.mem_operatorsOf_iff {v : Vocabulary} {tier : Tier} {entry : String × Operator} :
    entry ∈ v.operatorsOf tier ↔ entry ∈ v.operators.entries ∧ entry.2.tier = tier := by
  simp [Vocabulary.operatorsOf, Table.entriesWhere]

theorem Vocabulary.WellFormed.operatorsOf_sorted {v : Vocabulary} (wellFormed : v.WellFormed)
    (tier : Tier) : (v.operatorsOf tier).Pairwise fun a b => Table.Precedes a.1 b.1 :=
  wellFormed.operators.1.filter _

/-- A declared name holds no reserved character. -/
theorem Table.WellFormed.free {α : Type} {t : Table α} (wellFormed : t.WellFormed) {c : Char}
    (reserved : Character.isReserved c = true) : ∀ entry ∈ t.entries, c ∉ entry.1.toList := by
  intro entry listed inside
  have free := (wellFormed.2 entry listed).2 c inside
  exact absurd (free.symm.trans reserved) nofun

theorem Table.WellFormed.nonempty {α : Type} {t : Table α} (wellFormed : t.WellFormed) :
    ∀ entry ∈ t.entries, entry.1.toList ≠ [] := by
  intro entry listed
  simpa using (wellFormed.2 entry listed).1

theorem Standard.tableOf_reachable {α : Type} (kind : Kind) {entries : List (String × α)}
    (valid : ∀ entry ∈ entries, Table.Declarable entry.1) :
    (Standard.tableOf kind entries).Reachable kind := by
  have kept : ∀ t : Table α, t.Reachable kind →
      (entries.foldl (fun t entry => t.define entry.1 entry.2) t).Reachable kind := by
    induction entries with
    | nil => exact fun t reachable => reachable
    | cons entry rest ih =>
      intro t reachable
      refine ih (fun other behind => valid other (List.mem_cons_of_mem _ behind)) _ ?_
      exact reachable.define (valid entry List.mem_cons_self) entry.2
  exact kept _ .empty

/-- Names without reserved characters may be declared. -/
theorem Standard.declarable_of_all {α : Type} {entries : List (String × α)}
    (valid : (entries.map (·.1)).all
      (fun name => name ≠ "" && name.toList.all fun c => !Character.isReserved c) = true) :
    ∀ entry ∈ entries, Table.Declarable entry.1 := by
  intro entry listed
  have each := List.all_eq_true.1 valid entry.1 (List.mem_map_of_mem listed)
  simp only [Bool.and_eq_true, decide_eq_true_eq, List.all_eq_true, Bool.not_eq_true'] at each
  exact each

/-- Every table of a vocabulary is one of its own kind that requests lead to. -/
structure Vocabulary.Tables (v : Vocabulary) : Prop where
  constants : v.constants.Reachable .constant
  functions : v.functions.Reachable .function
  operators : v.operators.Reachable .operator

theorem Vocabulary.Tables.wellFormed {v : Vocabulary} (tables : v.Tables) : v.WellFormed :=
  ⟨tables.constants.wellFormed, tables.functions.wellFormed, tables.operators.wellFormed⟩

theorem Standard.vocabulary_tables : Standard.vocabulary.Tables where
  constants := tableOf_reachable _ (declarable_of_all (by decide))
  functions := tableOf_reachable _ (declarable_of_all (by decide))
  operators := tableOf_reachable _ (declarable_of_all (by decide))

theorem Standard.vocabulary_wellFormed : Standard.vocabulary.WellFormed :=
  vocabulary_tables.wellFormed

/-- A request of a vocabulary is one of its tables. -/
theorem Vocabulary.Reachable.tables {v : Vocabulary} (reachable : v.Reachable) : v.Tables := by
  induction reachable with
  | empty => exact ⟨.empty, .empty, .empty⟩
  | standard => exact Standard.vocabulary_tables
  | @declare v w name declaration _ declared ih =>
    cases declaration with
    | constant value =>
      obtain ⟨t, registered, rfl⟩ := exists_of_map_eq_ok declared
      exact { ih with constants := ih.constants.register registered }
    | function f =>
      obtain ⟨t, registered, rfl⟩ := exists_of_map_eq_ok declared
      exact { ih with functions := ih.functions.register registered }
    | operator op =>
      obtain ⟨t, registered, rfl⟩ := exists_of_map_eq_ok declared
      exact { ih with operators := ih.operators.register registered }
  | declareAll entries _ ih =>
    cases entries with
    | constants entries => exact { ih with constants := ih.constants.registerAll entries }
    | functions entries => exact { ih with functions := ih.functions.registerAll entries }
    | operators entries => exact { ih with operators := ih.operators.registerAll entries }
  | @remove v w kind name declaration _ removed ih =>
    cases kind with
    | constant =>
      obtain ⟨⟨value, t⟩, unregistered, same⟩ := exists_of_map_eq_ok removed
      cases same
      exact { ih with constants := ih.constants.unregister unregistered }
    | function =>
      obtain ⟨⟨f, t⟩, unregistered, same⟩ := exists_of_map_eq_ok removed
      cases same
      exact { ih with functions := ih.functions.unregister unregistered }
    | operator =>
      obtain ⟨⟨op, t⟩, unregistered, same⟩ := exists_of_map_eq_ok removed
      cases same
      exact { ih with operators := ih.operators.unregister unregistered }
  | copyTo overwrite _ _ origin destination =>
    exact ⟨destination.constants.copyInto origin.constants.wellFormed overwrite,
      destination.functions.copyInto origin.functions.wellFormed overwrite,
      destination.operators.copyInto origin.operators.wellFormed overwrite⟩

/-- What every request keeps holds of every vocabulary that a program comes to hold. -/
theorem Vocabulary.Reachable.wellFormed {v : Vocabulary} (reachable : v.Reachable) :
    v.WellFormed := reachable.tables.wellFormed

end Calculator
