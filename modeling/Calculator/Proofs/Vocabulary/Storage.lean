import Calculator.Proofs.Vocabulary.Store

/-!
# Vocabularies as they are kept

A storage keeps a vocabulary in three stores. Whatever is asked of it, and whether or not it
is refused, the storages that requests lead to keep exactly the vocabularies that requests
lead to, and each of their stores hands out its names as a table does: every declared name
once, and longer names first.
-/
namespace Calculator

/-- The constants, functions and operators that are kept. -/
structure Storage where
  constants : Store Float
  functions : Store Function
  operators : Store Operator

/-- A storage that can only be read. -/
structure FrozenStorage where
  contents : Storage

namespace Storage

def empty : Storage := ⟨.empty .constant, .empty .function, .empty .operator⟩

def standard : Storage where
  constants := .ofEntries .constant Standard.constants
  functions := .ofEntries .function Standard.functions
  operators := .ofEntries .operator Standard.operators

def declare (s : Storage) (name : String) : Declaration → Except NameError Unit × Storage
  | .constant value =>
    let (answer, t) := s.constants.register name value
    (answer, { s with constants := t })
  | .function f =>
    let (answer, t) := s.functions.register name f
    (answer, { s with functions := t })
  | .operator op =>
    let (answer, t) := s.operators.register name op
    (answer, { s with operators := t })

def declareAll (s : Storage) : Entries → Except NameError Unit × Storage
  | .constants entries =>
    let (answer, t) := s.constants.registerAll entries
    (answer, { s with constants := t })
  | .functions entries =>
    let (answer, t) := s.functions.registerAll entries
    (answer, { s with functions := t })
  | .operators entries =>
    let (answer, t) := s.operators.registerAll entries
    (answer, { s with operators := t })

/-- Removes a name of the given kind and gives what it was declared as. -/
def remove (s : Storage) (kind : Kind) (name : String) : Except NameError Declaration × Storage :=
  match kind with
  | .constant =>
    let (answer, t) := s.constants.unregister name
    (answer.map .constant, { s with constants := t })
  | .function =>
    let (answer, t) := s.functions.unregister name
    (answer.map .function, { s with functions := t })
  | .operator =>
    let (answer, t) := s.operators.unregister name
    (answer.map .operator, { s with operators := t })

def copyTo (source target : Storage) (overwrite : Bool) : Storage where
  constants := source.constants.copyInto target.constants overwrite
  functions := source.functions.copyInto target.functions overwrite
  operators := source.operators.copyInto target.operators overwrite

def clone (s : Storage) : Storage := s.copyTo empty true

/-- A snapshot, which is a copy. -/
def freeze (s : Storage) : FrozenStorage := ⟨s.copyTo empty true⟩

/-- The vocabulary that a storage keeps. -/
def vocabulary (s : Storage) : Vocabulary :=
  ⟨s.constants.table, s.functions.table, s.operators.table⟩

end Storage

namespace FrozenStorage

/-- The snapshot that takes a storage over as it is. -/
def ofStorage (s : Storage) : FrozenStorage := ⟨s⟩

def clone (f : FrozenStorage) : FrozenStorage := ⟨f.contents.clone⟩

def thaw (f : FrozenStorage) : Storage := f.contents.clone

end FrozenStorage

/-- The storages that requests lead to, refused ones included, with the contents of those
    that can only be read. -/
inductive Storage.Built : Storage → Prop where
  | empty : Built .empty
  | standard : Built .standard
  | declare {s : Storage} (name : String) (declaration : Declaration) (before : Built s) :
      Built (s.declare name declaration).2
  | declareAll {s : Storage} (entries : Entries) (before : Built s) : Built (s.declareAll entries).2
  | remove {s : Storage} (kind : Kind) (name : String) (before : Built s) :
      Built (s.remove kind name).2
  | copyTo {source target : Storage} (overwrite : Bool) (origin : Built source)
      (destination : Built target) : Built (source.copyTo target overwrite)
  | clone {s : Storage} (before : Built s) : Built s.clone
  | freeze {s : Storage} (before : Built s) : Built s.freeze.contents
  | ofStorage {s : Storage} (before : Built s) : Built (FrozenStorage.ofStorage s).contents
  | cloneFrozen {f : FrozenStorage} (before : Built f.contents) : Built f.clone.contents
  | thaw {f : FrozenStorage} (before : Built f.contents) : Built f.thaw

/-! ## What a store hands out -/

/-- The listing of a store is exactly that of the names it finds, and what it hands out is
    listed the same. -/
structure Store.Lists {α : Type} (s : Store α) : Prop where
  ascending : s.listing.Pairwise fun a b => Table.order a b = .lt
  keys : ∀ name, name ∈ s.listing ↔ s.contains name = true
  once : s.listing.Nodup
  valid : ∀ name, s.contains name = true →
    name ≠ "" ∧ '(' ∉ name.toList ∧ ')' ∉ name.toList ∧ ',' ∉ name.toList
  names : (∀ name, s.names.count name = if s.contains name then 1 else 0) ∧
    s.names.Pairwise fun a b => b.length ≤ a.length
  handed : ∀ condition,
    (∀ name declaration, (name, declaration) ∈ s.longestFirstWhere condition ↔
      s.get name = .ok declaration ∧ condition declaration = true) ∧
    ((s.longestFirstWhere condition).map (·.1)).Nodup ∧
    (s.longestFirstWhere condition).Pairwise fun a b => b.1.length ≤ a.1.length
  size : s.size = s.names.length
  /-- The table hands out the same. -/
  table : s.table.names = s.names ∧ s.table.size = s.size ∧ (∀ name, s.table.get name = s.get name) ∧
    ∀ condition, s.table.entriesWhere condition = s.longestFirstWhere condition

namespace Store

variable {α : Type} {s : Store α} {name : String} {declaration : α}

theorem get_eq_ok_iff : s.get name = .ok declaration ↔ s.declarations[name]? = some declaration := by
  rw [get]
  cases s.declarations[name]? <;> simp

theorem length_le_of_precedes {a b : String} (before : Table.Precedes a b) :
    b.length ≤ a.length := before.elim Nat.le_of_lt fun same => same.1.ge

theorem filter_longestFirst (s : Store α) (condition : α → Bool) :
    s.longestFirst.filter (fun entry => condition entry.2) = s.longestFirstWhere condition := by
  have each : ∀ (name : String) (held : Option α),
      (((held.filter fun _ => true).map fun declaration => (name, declaration)).filter
        fun entry => condition entry.2) =
          (held.filter condition).map fun declaration => (name, declaration) := by
    intro name held
    cases held with
    | none => rfl
    | some declaration =>
      cases met : condition declaration <;> simp [Option.filter_some, met]
  rw [longestFirst, longestFirstWhere, longestFirstWhere, List.filter_filterMap]
  exact List.filterMap_congr fun name _ => each name _

/-- The map holds as many names as the listing. -/
theorem Consistent.size_eq (consistent : s.Consistent) : s.size = s.listing.length := by
  have same : s.declarations.keys.Perm s.listing := by
    refine (List.perm_ext_iff_of_nodup Std.HashMap.nodup_keys
      (nodup_of_sorted consistent.sorted)).2 fun name => ?_
    rw [consistent.keys]
    exact Std.HashMap.mem_keys
  exact Std.HashMap.length_keys.symm.trans same.length_eq

theorem Consistent.lists (consistent : s.Consistent) : s.Lists := by
  have once := nodup_of_sorted consistent.sorted
  have listed : ∀ condition, ((s.longestFirstWhere condition).map (·.1)).Pairwise Table.Precedes := by
    intro condition
    rw [names_longestFirstWhere]
    exact consistent.sorted.filter _
  constructor
  case ascending => exact consistent.sorted.imp fun before => Table.order_eq_lt_iff.2 before
  case keys => exact consistent.keys
  case once => exact once
  case valid =>
    intro name held
    obtain ⟨nonempty, free⟩ := consistent.declarable name ((consistent.keys name).2 held)
    have absent : ∀ c, Character.isReserved c = true → c ∉ name.toList :=
      fun c reserved inside => nomatch (free c inside).symm.trans reserved
    exact ⟨nonempty, absent _ rfl, absent _ rfl, absent _ rfl⟩
  case names =>
    refine ⟨fun name => ?_, consistent.sorted.imp length_le_of_precedes⟩
    rw [names, once.count]
    simp only [consistent.keys]
  case handed =>
    refine fun condition => ⟨fun name declaration => ?_, ?_, ?_⟩
    · rw [get_eq_ok_iff, consistent.mem_iff]
    · exact nodup_of_sorted (listed condition)
    · exact (List.pairwise_map.1 (listed condition)).imp length_le_of_precedes
  case size => exact consistent.size_eq
  case table =>
    refine ⟨consistent.names_longestFirst, ?_, fun name => ?_, s.filter_longestFirst⟩
    · have names := congrArg List.length consistent.names_longestFirst
      rw [Table.names, List.length_map] at names
      exact names.trans consistent.size_eq.symm
    · rw [Table.get, get, consistent.find?_table]
      rfl

end Store

/-! ## Requests -/

namespace Storage

/-- The three stores of a storage are consistent. -/
structure Consistent (s : Storage) : Prop where
  constants : s.constants.Consistent
  functions : s.functions.Consistent
  operators : s.operators.Consistent

variable {s : Storage} {name : String}

theorem consistent_empty : empty.Consistent :=
  ⟨Store.consistent_empty _, Store.consistent_empty _, Store.consistent_empty _⟩

theorem consistent_standard : standard.Consistent ∧ standard.vocabulary = Standard.vocabulary := by
  obtain ⟨constants, keptConstants⟩ := Store.consistent_ofEntries .constant
    (Standard.declarable_of_all (show _ = true by decide) : ∀ entry ∈ Standard.constants, _)
  obtain ⟨functions, keptFunctions⟩ := Store.consistent_ofEntries .function
    (Standard.declarable_of_all (show _ = true by decide) : ∀ entry ∈ Standard.functions, _)
  obtain ⟨operators, keptOperators⟩ := Store.consistent_ofEntries .operator
    (Standard.declarable_of_all (show _ = true by decide) : ∀ entry ∈ Standard.operators, _)
  refine ⟨⟨constants, functions, operators⟩, ?_⟩
  rw [vocabulary, standard]
  dsimp only
  rw [keptConstants, keptFunctions, keptOperators]
  rfl

section

/-! What holds of a request on one store holds of the storage that this store is put in. -/

variable {α : Type} {t : Store α} {P : Store α → Storage} {Q : Table α → Vocabulary}

theorem register_within (held : t.Consistent) (sound : ∀ u, u.Consistent → (P u).Consistent)
    (keeps : ∀ u, (P u).vocabulary = Q u.table) (name : String) (declaration : α) :
    (P (t.register name declaration).2).Consistent ∧
      ((∃ e, (t.table.register name declaration).map Q = .error e ∧
          ((t.register name declaration).1, P (t.register name declaration).2) = (.error e, P t)) ∨
        (t.table.register name declaration).map Q =
          .ok (P (t.register name declaration).2).vocabulary) := by
  rcases held.register_cases name declaration with
    ⟨e, refused, same⟩ | ⟨declarable, registered, same⟩
  · rw [same, refused]
    exact ⟨sound _ held, .inl ⟨e, rfl, rfl⟩⟩
  · rw [same, registered]
    exact ⟨sound _ (held.define declarable declaration), .inr (congrArg Except.ok (keeps _).symm)⟩

theorem registerAll_within (held : t.Consistent) (sound : ∀ u, u.Consistent → (P u).Consistent)
    (keeps : ∀ u, (P u).vocabulary = Q u.table) (entries : List (String × α)) :
    (P (t.registerAll entries).2).Consistent ∧
      (P (t.registerAll entries).2).vocabulary = Q (t.table.registerAll entries).table := by
  obtain ⟨kept, same, -⟩ := held.registerAll entries
  exact ⟨sound _ kept, (keeps _).trans (congrArg Q same)⟩

theorem unregister_within {f : α → Declaration} {R : α × Table α → Declaration × Vocabulary}
    (held : t.Consistent) (sound : ∀ u, u.Consistent → (P u).Consistent)
    (keeps : ∀ declaration u, R (declaration, u.table) = (f declaration, (P u).vocabulary))
    (name : String) :
    (P (t.unregister name).2).Consistent ∧
      ((∃ e, (t.table.unregister name).map R = .error e ∧
          ((t.unregister name).1.map f, P (t.unregister name).2) = (.error e, P t)) ∨
        ∃ declaration, (t.table.unregister name).map R =
          .ok (declaration, (P (t.unregister name).2).vocabulary)) := by
  refine ⟨sound _ (held.unregister name), ?_⟩
  rcases held.unregister_cases name with ⟨e, refused, same⟩ | ⟨declaration, removed, -⟩
  · rw [same, refused]
    exact .inl ⟨e, rfl, rfl⟩
  · rw [removed]
    exact .inr ⟨_, congrArg Except.ok (keeps _ _)⟩

end

/-- A name is refused and nothing changes, or it is declared, in the storage and in the
    vocabulary that it keeps alike. -/
theorem Consistent.declare (consistent : s.Consistent) (name : String) (declaration : Declaration) :
    (s.declare name declaration).2.Consistent ∧
      ((∃ e, s.vocabulary.declare name declaration = .error e ∧
          s.declare name declaration = (.error e, s)) ∨
        s.vocabulary.declare name declaration = .ok (s.declare name declaration).2.vocabulary) := by
  cases declaration with
  | constant value =>
    exact register_within (P := fun t => { s with constants := t }) consistent.constants
      (fun _ kept => { consistent with constants := kept }) (fun _ => rfl) name value
  | function f =>
    exact register_within (P := fun t => { s with functions := t }) consistent.functions
      (fun _ kept => { consistent with functions := kept }) (fun _ => rfl) name f
  | operator op =>
    exact register_within (P := fun t => { s with operators := t }) consistent.operators
      (fun _ kept => { consistent with operators := kept }) (fun _ => rfl) name op

theorem Consistent.declareAll (consistent : s.Consistent) (entries : Entries) :
    (s.declareAll entries).2.Consistent ∧
      (s.declareAll entries).2.vocabulary = (s.vocabulary.declareAll entries).vocabulary := by
  cases entries with
  | constants entries =>
    exact registerAll_within (P := fun t => { s with constants := t })
      (Q := fun t => { s.vocabulary with constants := t }) consistent.constants
      (fun _ kept => { consistent with constants := kept }) (fun _ => rfl) entries
  | functions entries =>
    exact registerAll_within (P := fun t => { s with functions := t })
      (Q := fun t => { s.vocabulary with functions := t }) consistent.functions
      (fun _ kept => { consistent with functions := kept }) (fun _ => rfl) entries
  | operators entries =>
    exact registerAll_within (P := fun t => { s with operators := t })
      (Q := fun t => { s.vocabulary with operators := t }) consistent.operators
      (fun _ kept => { consistent with operators := kept }) (fun _ => rfl) entries

theorem Consistent.remove (consistent : s.Consistent) (kind : Kind) (name : String) :
    (s.remove kind name).2.Consistent ∧
      ((∃ e, s.vocabulary.remove kind name = .error e ∧ s.remove kind name = (.error e, s)) ∨
        ∃ declaration,
          s.vocabulary.remove kind name = .ok (declaration, (s.remove kind name).2.vocabulary)) := by
  cases kind with
  | constant =>
    exact unregister_within (P := fun t => { s with constants := t }) consistent.constants
      (fun _ kept => { consistent with constants := kept }) (fun _ _ => rfl) name
  | function =>
    exact unregister_within (P := fun t => { s with functions := t }) consistent.functions
      (fun _ kept => { consistent with functions := kept }) (fun _ _ => rfl) name
  | operator =>
    exact unregister_within (P := fun t => { s with operators := t }) consistent.operators
      (fun _ kept => { consistent with operators := kept }) (fun _ _ => rfl) name

theorem Consistent.copyTo {source target : Storage} (origin : source.Consistent)
    (destination : target.Consistent) (overwrite : Bool) :
    (source.copyTo target overwrite).Consistent ∧
      (source.copyTo target overwrite).vocabulary =
        source.vocabulary.copyTo target.vocabulary overwrite := by
  obtain ⟨constants, keptConstants⟩ := origin.constants.copyInto destination.constants overwrite
  obtain ⟨functions, keptFunctions⟩ := origin.functions.copyInto destination.functions overwrite
  obtain ⟨operators, keptOperators⟩ := origin.operators.copyInto destination.operators overwrite
  refine ⟨⟨constants, functions, operators⟩, ?_⟩
  rw [vocabulary, Storage.copyTo]
  dsimp only
  rw [keptConstants, keptFunctions, keptOperators]
  rfl

/-! ## Series of requests -/

/-- A storage that keeps a vocabulary which requests lead to. -/
structure Sound (s : Storage) : Prop where
  consistent : s.Consistent
  reachable : s.vocabulary.Reachable

theorem sound_empty : empty.Sound := ⟨consistent_empty, .empty⟩

theorem Sound.copyTo {source target : Storage} (origin : source.Sound) (destination : target.Sound)
    (overwrite : Bool) : (source.copyTo target overwrite).Sound := by
  obtain ⟨consistent, same⟩ := origin.consistent.copyTo destination.consistent overwrite
  exact ⟨consistent, same ▸ .copyTo overwrite origin.reachable destination.reachable⟩

/-- Every storage that requests lead to is consistent and keeps a vocabulary that requests
    lead to. -/
theorem Built.sound (built : s.Built) : s.Sound := by
  induction built with
  | empty => exact sound_empty
  | standard =>
    obtain ⟨consistent, same⟩ := consistent_standard
    exact ⟨consistent, same ▸ .standard⟩
  | declare name declaration _ ih =>
    obtain ⟨consistent, ⟨e, -, refused⟩ | declared⟩ := ih.consistent.declare name declaration
    · rwa [refused]
    · exact ⟨consistent, ih.reachable.declare declared⟩
  | declareAll entries _ ih =>
    obtain ⟨consistent, same⟩ := ih.consistent.declareAll entries
    exact ⟨consistent, same ▸ ih.reachable.declareAll entries⟩
  | remove kind name _ ih =>
    obtain ⟨consistent, ⟨e, -, refused⟩ | ⟨declaration, removed⟩⟩ := ih.consistent.remove kind name
    · rwa [refused]
    · exact ⟨consistent, ih.reachable.remove removed⟩
  | copyTo overwrite _ _ origin destination => exact origin.copyTo destination overwrite
  | ofStorage _ ih => exact ih
  | clone _ ih | freeze _ ih | cloneFrozen _ ih | thaw _ ih => exact ih.copyTo sound_empty true

/-- Every vocabulary that requests lead to is kept by a storage that requests lead to. -/
theorem exists_built {v : Vocabulary} (reachable : v.Reachable) :
    ∃ s : Storage, s.Built ∧ s.vocabulary = v := by
  induction reachable with
  | empty => exact ⟨.empty, .empty, rfl⟩
  | standard => exact ⟨.standard, .standard, consistent_standard.2⟩
  | @declare v w name declaration _ declared ih =>
    obtain ⟨s, built, rfl⟩ := ih
    refine ⟨_, .declare name declaration built, ?_⟩
    obtain ⟨-, ⟨e, refused, -⟩ | same⟩ := built.sound.consistent.declare name declaration
    · exact nomatch refused.symm.trans declared
    · exact Except.ok.inj (same.symm.trans declared)
  | declareAll entries _ ih =>
    obtain ⟨s, built, rfl⟩ := ih
    exact ⟨_, .declareAll entries built, (built.sound.consistent.declareAll entries).2⟩
  | @remove v w kind name declaration _ removed ih =>
    obtain ⟨s, built, rfl⟩ := ih
    refine ⟨_, .remove kind name built, ?_⟩
    obtain ⟨-, ⟨e, refused, -⟩ | ⟨other, same⟩⟩ := built.sound.consistent.remove kind name
    · exact nomatch refused.symm.trans removed
    · exact (Prod.mk.inj (Except.ok.inj (same.symm.trans removed))).2
  | copyTo overwrite _ _ origin destination =>
    obtain ⟨source, builtSource, rfl⟩ := origin
    obtain ⟨target, builtTarget, rfl⟩ := destination
    exact ⟨_, .copyTo overwrite builtSource builtTarget,
      (builtSource.sound.consistent.copyTo builtTarget.sound.consistent overwrite).2⟩

/-- After any series of requests the stores of a storage list exactly the names that they
    find, and the storage keeps a vocabulary that requests lead to. All of these are kept. -/
theorem lists_of_built :
    (∀ s : Storage, s.Built →
      s.constants.Lists ∧ s.functions.Lists ∧ s.operators.Lists ∧ s.vocabulary.Reachable) ∧
        ∀ v : Vocabulary, v.Reachable → ∃ s : Storage, s.Built ∧ s.vocabulary = v := by
  refine ⟨fun s built => ?_, fun v reachable => exists_built reachable⟩
  obtain ⟨consistent, reachable⟩ := built.sound
  exact ⟨consistent.constants.lists, consistent.functions.lists, consistent.operators.lists,
    reachable⟩

/-- A constant, with a series behind it that its second name stops. -/
def stopped : Storage := (empty.declareAll (.constants [("a", 1), ("b)", 2), ("c", 3)])).2

/-- Two constants copied over that one, the shorter of them in its place. -/
def extended : Storage :=
  (empty.declareAll (.constants [("a", 5), ("ab", 4)])).2.copyTo stopped true

theorem lists_of_built_extended :
    extended.Built ∧ extended.constants.Lists ∧ extended.constants.names = ["ab", "a"] ∧
      extended.constants.get "a" = .ok 5 ∧ extended.constants.contains "c" = false := by
  have built : extended.Built := .copyTo true (.declareAll _ .empty) (.declareAll _ .empty)
  obtain ⟨constants, -⟩ := lists_of_built.1 extended built
  obtain ⟨source, keptSource⟩ := consistent_empty.declareAll (.constants [("a", 5), ("ab", 4)])
  obtain ⟨target, keptTarget⟩ :=
    consistent_empty.declareAll (.constants [("a", 1), ("b)", 2), ("c", 3)])
  have kept := (source.copyTo target true).2
  rw [keptSource, keptTarget] at kept
  have table : extended.constants.table = ⟨.constant, [("ab", 4), ("a", 5)]⟩ :=
    congrArg Vocabulary.constants kept
  obtain ⟨names, -, get, -⟩ := constants.table
  rw [table] at names get
  refine ⟨built, constants, names.symm, (get "a").symm, ?_⟩
  have absent : "c" ∉ extended.constants.names := names ▸ (by decide : "c" ∉ ["ab", "a"])
  exact Bool.eq_false_iff.2 fun held => absent ((constants.keys "c").2 held)

end Storage

end Calculator
