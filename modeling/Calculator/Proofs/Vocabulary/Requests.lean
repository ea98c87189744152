import Calculator.Proofs.Vocabulary.Storage

/-!
# Requests on what is kept

A storage is one finite map from kinds and names to declarations, with the names of each kind
in order. A refused request says exactly why and leaves everything as it was. One that is
granted changes what is held under its own name and nothing else, and the opposite request
takes it back, with the listing as it was before.
-/
namespace Calculator

namespace Storage

/-- The declaration of a name of one kind, or the reason why there is none. -/
def get (s : Storage) (kind : Kind) (name : String) : Except NameError Declaration :=
  match kind with
  | .constant => (s.constants.get name).map .constant
  | .function => (s.functions.get name).map .function
  | .operator => (s.operators.get name).map .operator

def contains (s : Storage) (kind : Kind) (name : String) : Bool :=
  match kind with
  | .constant => s.constants.contains name
  | .function => s.functions.contains name
  | .operator => s.operators.contains name

/-- The names of one kind, longest first. -/
def names (s : Storage) : Kind → List String
  | .constant => s.constants.names
  | .function => s.functions.names
  | .operator => s.operators.names

/-- Two storages hold the same declarations and list their names in the same order. -/
structure Same (s t : Storage) : Prop where
  get : ∀ kind name, s.get kind name = t.get kind name
  names : ∀ kind, s.names kind = t.names kind

/-- A storage finds and lists what a vocabulary does. -/
structure Keeps (s : Storage) (v : Vocabulary) : Prop where
  vocabulary : s.vocabulary = v
  get : ∀ kind name, s.get kind name = v.get kind name
  names : ∀ kind, s.names kind = v.names kind

/-- The stores of all kinds but one are the same. -/
structure Beside (kind : Kind) (s t : Storage) : Prop where
  constants : kind ≠ .constant → t.constants = s.constants
  functions : kind ≠ .function → t.functions = s.functions
  operators : kind ≠ .operator → t.operators = s.operators

end Storage

/-- The declarations of a series, in turn. -/
def Entries.declarations : Entries → List (String × Declaration)
  | .constants entries => entries.map fun entry => (entry.1, .constant entry.2)
  | .functions entries => entries.map fun entry => (entry.1, .function entry.2)
  | .operators entries => entries.map fun entry => (entry.1, .operator entry.2)

/-! ## Single stores -/

namespace Store
open Table (Precedes Declarable precedes_irrefl)

variable {α : Type} {s t : Store α} {name : String} {declaration : α}

theorem contains_eq_isOk (s : Store α) (name : String) :
    s.contains name = (s.get name).isOk := by
  rw [contains_eq, get]
  cases s.declarations[name]? <;> rfl

theorem get_of_missing (missing : s.contains name = false) :
    s.get name = .error (.notFound s.kind name) := by
  rw [contains_eq] at missing
  rw [get]
  cases held : s.declarations[name]? with
  | none => rfl
  | some declaration =>
    rw [held] at missing
    cases missing

theorem get_define (s : Store α) (name : String) (declaration : α) (other : String) :
    (s.define name declaration).get other =
      if other = name then .ok declaration else s.get other := by
  rw [get, find_define, get]
  by_cases same : other = name
  · rw [if_pos same, if_pos same]
  · rw [if_neg same, if_neg same]
    rfl

theorem get_of_unregister (removed : (s.unregister name).1 = .ok declaration) :
    s.get name = .ok declaration := by
  rw [unregister] at removed
  rw [get]
  cases held : s.declarations[name]? with
  | none =>
    rw [held] at removed
    cases removed
  | some found =>
    rw [held] at removed
    cases removed
    rfl

/-- A name that is held is removed, and what was under it is given. -/
theorem Consistent.unregister_of_get (consistent : s.Consistent)
    (held : s.get name = .ok declaration) :
    (s.unregister name).1 = .ok declaration ∧ ∀ other, (s.unregister name).2.get other =
      if other = name then .error (.notFound s.kind name) else s.get other := by
  rw [consistent.unregister_of_held (get_eq_ok_iff.1 held)]
  refine ⟨rfl, fun other => ?_⟩
  rw [get, find_erase, get]
  by_cases same : other = name
  · rw [if_pos same, if_pos same, same]
  · rw [if_neg same, if_neg same]

/-- The listing is settled by the names that are found. -/
theorem Consistent.listing_eq (first : s.Consistent) (second : t.Consistent)
    (same : ∀ name, s.contains name = t.contains name) : s.listing = t.listing := by
  have irrefl : Std.Irrefl Precedes := ⟨precedes_irrefl⟩
  have antisymm : Std.Antisymm Precedes :=
    ⟨fun a b before after => absurd (before.trans after) (precedes_irrefl a)⟩
  refine first.sorted.eq_of_mem_iff second.sorted fun name => ?_
  rw [first.keys, second.keys, same]

/-- What a request to declare a name is answered, by what speaks against the name. -/
theorem register_of_empty (s : Store α) (declaration : α) :
    s.register "" declaration = (.error .emptyName, s) := by
  rw [register, refusal?, if_pos rfl]

theorem register_of_reserved (s : Store α) (declaration : α) {c : Char}
    (first : Character.firstReserved? name = some c) :
    s.register name declaration = (.error (.reservedCharacter name c), s) := by
  have nonempty : name ≠ "" := by
    rintro rfl
    cases first
  rw [register, refusal?, if_neg nonempty, first]

theorem register_of_declarable (declarable : Declarable name) (s : Store α) (declaration : α) :
    s.register name declaration =
      if s.contains name then (.error (.duplicate s.kind name), s)
      else (.ok (), s.define name declaration) := by
  obtain ⟨nonempty, free⟩ := declarable
  rw [register, refusal?, if_neg nonempty, (Character.firstReserved?_eq_none_iff name).2 free]
  dsimp only
  cases s.contains name <;> rfl

/-- A refused request changes nothing. -/
theorem eq_of_register_error {e : NameError}
    (refused : (s.register name declaration).1 = .error e) :
    s.register name declaration = (.error e, s) := by
  rw [register] at refused ⊢
  cases reason : s.refusal? name with
  | some f =>
    rw [reason] at refused
    exact congrArg (·, s) refused
  | none =>
    rw [reason] at refused
    cases refused

end Store

namespace Storage
open Table (Precedes Declarable)

/-! ## Storages -/

variable {s t u : Storage} {kind other : Kind} {name : String} {declaration : Declaration}

theorem contains_eq_isOk (s : Storage) (kind : Kind) (name : String) :
    s.contains kind name = (s.get kind name).isOk := by
  have isOk_map : ∀ {α : Type} (answer : Except NameError α) (embed : α → Declaration),
      (answer.map embed).isOk = answer.isOk := by
    intro α answer embed
    cases answer <;> rfl
  cases kind with
  | constant => exact (Store.contains_eq_isOk _ name).trans (isOk_map _ _).symm
  | function => exact (Store.contains_eq_isOk _ name).trans (isOk_map _ _).symm
  | operator => exact (Store.contains_eq_isOk _ name).trans (isOk_map _ _).symm

theorem Beside.get (beside : s.Beside kind t) (apart : other ≠ kind) (name : String) :
    t.get other name = s.get other name := by
  cases other with
  | constant => simp only [Storage.get, beside.constants (Ne.symm apart)]
  | function => simp only [Storage.get, beside.functions (Ne.symm apart)]
  | operator => simp only [Storage.get, beside.operators (Ne.symm apart)]

/-- Consistent storages that hold the same declarations list the same names. -/
theorem Consistent.same (first : s.Consistent) (second : t.Consistent)
    (get : ∀ kind name, s.get kind name = t.get kind name) : s.Same t := by
  have contains : ∀ kind name, s.contains kind name = t.contains kind name := by
    intro kind name
    rw [contains_eq_isOk, contains_eq_isOk, get]
  refine ⟨get, fun kind => ?_⟩
  cases kind with
  | constant => exact first.constants.listing_eq second.constants (contains .constant)
  | function => exact first.functions.listing_eq second.functions (contains .function)
  | operator => exact first.operators.listing_eq second.operators (contains .operator)

theorem Consistent.keeps (consistent : s.Consistent) : s.Keeps s.vocabulary := by
  have constants := consistent.constants.lists.table
  have functions := consistent.functions.lists.table
  have operators := consistent.operators.lists.table
  refine ⟨rfl, fun kind name => ?_, fun kind => ?_⟩
  · cases kind with
    | constant => exact congrArg (Except.map Declaration.constant) (constants.2.2.1 name).symm
    | function => exact congrArg (Except.map Declaration.function) (functions.2.2.1 name).symm
    | operator => exact congrArg (Except.map Declaration.operator) (operators.2.2.1 name).symm
  · cases kind with
    | constant => exact constants.1.symm
    | function => exact functions.1.symm
    | operator => exact operators.1.symm

/-! ## The store of one kind -/

/-- One of the stores of a storage: what is asked of the storage about its kind is asked of
    this store, and the others stand beside it. -/
structure Shelf (α : Type) where
  kind : Kind
  embed : α → Declaration
  entries : List (String × α) → Entries
  store : Storage → Store α
  put : Storage → Store α → Storage
  /-- The same on the vocabulary that is kept. -/
  place : Vocabulary → Table α → Vocabulary
  kind_embed (x : α) : (embed x).kind = kind := by intros; rfl
  declarations_entries (l : List (String × α)) :
    (entries l).declarations = l.map fun entry => (entry.1, embed entry.2) := by intros; rfl
  store_put (s : Storage) (t : Store α) : store (put s t) = t := by intros; rfl
  put_store (s : Storage) : put s (store s) = s := by intros; rfl
  put_put (s : Storage) (t u : Store α) : put (put s t) u = put s u := by intros; rfl
  beside (s : Storage) (t : Store α) : s.Beside kind (put s t)
  sound {s : Storage} (sound : s.Sound) : (store s).Consistent ∧ (store s).kind = kind
  get_eq (s : Storage) (name : String) :
    s.get kind name = ((store s).get name).map embed := by intros; rfl
  contains_eq (s : Storage) (name : String) :
    s.contains kind name = (store s).contains name := by intros; rfl
  declare_eq (s : Storage) (name : String) (x : α) :
    s.declare name (embed x) =
      (((store s).register name x).1, put s ((store s).register name x).2) := by intros; rfl
  declareAll_eq (s : Storage) (l : List (String × α)) :
    s.declareAll (entries l) =
      (((store s).registerAll l).1, put s ((store s).registerAll l).2) := by intros; rfl
  remove_eq (s : Storage) (name : String) :
    s.remove kind name =
      (((store s).unregister name).1.map embed, put s ((store s).unregister name).2) := by
    intros; rfl
  place_eq (s : Storage) (t : Store α) :
    place s.vocabulary t.table = (put s t).vocabulary := by intros; rfl
  declare_vocabulary (s : Storage) (name : String) (x : α) :
    s.vocabulary.declare name (embed x) =
      ((store s).table.register name x).map (place s.vocabulary) := by intros; rfl
  remove_vocabulary (s : Storage) (name : String) :
    s.vocabulary.remove kind name =
      ((store s).table.unregister name).map
        fun (x, t) => (embed x, place s.vocabulary t) := by intros; rfl
  declareAll_vocabulary (s : Storage) (l : List (String × α)) :
    (s.vocabulary.declareAll (entries l)).vocabulary =
        place s.vocabulary ((store s).table.registerAll l).table ∧
      (s.vocabulary.declareAll (entries l)).failure =
        ((store s).table.registerAll l).failure := by intros; exact ⟨rfl, rfl⟩

namespace Shelf

def constants : Shelf Float where
  kind := .constant
  embed := .constant
  entries := .constants
  store := Storage.constants
  put s t := { s with constants := t }
  place v t := { v with constants := t }
  beside _ _ := ⟨fun apart => absurd rfl apart, fun _ => rfl, fun _ => rfl⟩
  sound sound := ⟨sound.consistent.constants, sound.reachable.tables.constants.kind_eq⟩

def functions : Shelf Function where
  kind := .function
  embed := .function
  entries := .functions
  store := Storage.functions
  put s t := { s with functions := t }
  place v t := { v with functions := t }
  beside _ _ := ⟨fun _ => rfl, fun apart => absurd rfl apart, fun _ => rfl⟩
  sound sound := ⟨sound.consistent.functions, sound.reachable.tables.functions.kind_eq⟩

def operators : Shelf Operator where
  kind := .operator
  embed := .operator
  entries := .operators
  store := Storage.operators
  put s t := { s with operators := t }
  place v t := { v with operators := t }
  beside _ _ := ⟨fun _ => rfl, fun _ => rfl, fun apart => absurd rfl apart⟩
  sound sound := ⟨sound.consistent.operators, sound.reachable.tables.operators.kind_eq⟩

theorem exists_kind (kind : Kind) : ∃ (α : Type) (f : Shelf α), f.kind = kind := by
  cases kind with
  | constant => exact ⟨_, constants, rfl⟩
  | function => exact ⟨_, functions, rfl⟩
  | operator => exact ⟨_, operators, rfl⟩

theorem exists_embed (declaration : Declaration) :
    ∃ (α : Type) (f : Shelf α) (x : α), f.embed x = declaration := by
  cases declaration with
  | constant x => exact ⟨_, constants, x, rfl⟩
  | function x => exact ⟨_, functions, x, rfl⟩
  | operator x => exact ⟨_, operators, x, rfl⟩

theorem exists_entries (entries : Entries) :
    ∃ (α : Type) (f : Shelf α) (l : List (String × α)), f.entries l = entries := by
  cases entries with
  | constants l => exact ⟨_, constants, l, rfl⟩
  | functions l => exact ⟨_, functions, l, rfl⟩
  | operators l => exact ⟨_, operators, l, rfl⟩

end Shelf

/-! ## Single requests -/

/-- What is held under one name has changed, and nothing else. -/
structure Changed (s t : Storage) (kind : Kind) (name : String) (held : Option Declaration) :
    Prop where
  get : ∀ k n, t.get k n =
    if k = kind ∧ n = name then held.elim (.error (.notFound kind name)) .ok else s.get k n
  contains : ∀ k n, t.contains k n = if k = kind ∧ n = name then held.isSome else s.contains k n
  beside : s.Beside kind t

/-- A request to declare a name: why it is refused, and what it changes otherwise. -/
structure Declares (s : Storage) (name : String) (declaration : Declaration) : Prop where
  empty : name = "" → s.declare name declaration = (.error .emptyName, s)
  /-- The first reserved character of the name is reported. -/
  reserved : ∀ before c behind, name.toList = before ++ c :: behind →
    Character.isReserved c = true → (∀ b ∈ before, Character.isReserved b = false) →
      s.declare name declaration = (.error (.reservedCharacter name c), s)
  duplicate : Declarable name → s.contains declaration.kind name = true →
    s.declare name declaration = (.error (.duplicate declaration.kind name), s)
  declared : Declarable name → s.contains declaration.kind name = false →
    ∃ t, s.declare name declaration = (.ok (), t) ∧
      s.Changed t declaration.kind name (some declaration)
  refused : ∀ e t, s.declare name declaration = (.error e, t) →
    t = s ∧ s.vocabulary.declare name declaration = .error e
  /-- Removing the name again leaves what was there before. -/
  granted : ∀ t, s.declare name declaration = (.ok (), t) →
    (∃ w, s.vocabulary.declare name declaration = .ok w ∧ t.Keeps w) ∧
      ∃ u, t.remove declaration.kind name = (.ok declaration, u) ∧ u.Same s

/-- A request to remove a name: it is refused exactly if the name is not there. -/
structure Removes (s : Storage) (kind : Kind) (name : String) : Prop where
  missing : s.contains kind name = false →
    s.remove kind name = (.error (.notFound kind name), s)
  removed : s.contains kind name = true → ∃ declaration t, s.get kind name = .ok declaration ∧
    declaration.kind = kind ∧ s.remove kind name = (.ok declaration, t) ∧
      s.Changed t kind name none
  refused : ∀ e t, s.remove kind name = (.error e, t) →
    t = s ∧ s.vocabulary.remove kind name = .error e
  /-- Declaring what was removed leaves what was there before. -/
  granted : ∀ declaration t, s.remove kind name = (.ok declaration, t) →
    (∃ w, s.vocabulary.remove kind name = .ok (declaration, w) ∧ t.Keeps w) ∧
      ∃ u, t.declare name declaration = (.ok (), u) ∧ u.Same s

theorem Sound.get_of_missing (sound : s.Sound) (missing : s.contains kind name = false) :
    s.get kind name = .error (.notFound kind name) := by
  obtain ⟨α, f, rfl⟩ := Shelf.exists_kind kind
  rw [f.contains_eq] at missing
  rw [f.get_eq, Store.get_of_missing missing, (f.sound sound).2]
  rfl

/-- A changed storage that is changed back holds what it held. -/
theorem Changed.back {held earlier : Option Declaration} (changed : s.Changed t kind name held)
    (back : t.Changed u kind name earlier)
    (before : s.get kind name = earlier.elim (.error (.notFound kind name)) .ok)
    (first : s.Consistent) (last : u.Consistent) : u.Same s := by
  refine last.same first fun k n => ?_
  rw [back.get, changed.get]
  by_cases here : k = kind ∧ n = name
  · rw [if_pos here, here.1, here.2, before]
  · rw [if_neg here, if_neg here]

namespace Shelf

variable {α : Type} (f : Shelf α) {x : α}

/-- A changed store is a change of the storage that it is put in. -/
theorem changed {v : Store α} (held : Option α)
    (get : ∀ n, v.get n =
      if n = name then held.elim (.error (.notFound f.kind name)) .ok else (f.store s).get n) :
    s.Changed (f.put s v) f.kind name (held.map f.embed) := by
  have beside := f.beside s v
  have got : ∀ k n, (f.put s v).get k n =
      if k = f.kind ∧ n = name then
        (held.map f.embed).elim (.error (.notFound f.kind name)) .ok else s.get k n := by
    intro k n
    by_cases own : k = f.kind
    · subst own
      rw [f.get_eq, f.store_put, get, f.get_eq]
      by_cases same : n = name
      · rw [if_pos same, if_pos ⟨rfl, same⟩]
        cases held <;> rfl
      · rw [if_neg same, if_neg fun both => same both.2]
    · rw [beside.get own, if_neg fun both => own both.1]
  refine ⟨got, fun k n => ?_, beside⟩
  rw [contains_eq_isOk, got, contains_eq_isOk]
  by_cases here : k = f.kind ∧ n = name
  · rw [if_pos here, if_pos here]
    cases held <;> rfl
  · rw [if_neg here, if_neg here]

theorem changed_of_define (s : Storage) (name : String) (x : α) :
    s.Changed (f.put s ((f.store s).define name x)) f.kind name (some (f.embed x)) :=
  f.changed (some x) fun n => (f.store s).get_define name x n

theorem changed_of_unregister (sound : s.Sound) (held : (f.store s).get name = .ok x) :
    s.Changed (f.put s ((f.store s).unregister name).2) f.kind name none := by
  obtain ⟨consistent, kind⟩ := f.sound sound
  refine f.changed none fun n => ?_
  rw [(consistent.unregister_of_get held).2, kind]
  rfl

/-- A request to declare a name is refused and changes nothing, or it is granted, in the
    storage and in the vocabulary that it keeps alike. -/
theorem declare_cases (sound : s.Sound) (name : String) (x : α) :
    (∃ e, s.declare name (f.embed x) = (.error e, s) ∧
      s.vocabulary.declare name (f.embed x) = .error e) ∨
        (Declarable name ∧ s.contains f.kind name = false) ∧
          s.declare name (f.embed x) = (.ok (), f.put s ((f.store s).define name x)) ∧
            s.vocabulary.declare name (f.embed x) =
              .ok (f.put s ((f.store s).define name x)).vocabulary := by
  rw [f.declare_eq, f.declare_vocabulary]
  rcases (f.sound sound).1.register_cases name x with
    ⟨e, refused, same⟩ | ⟨declarable, registered, same⟩
  · rw [refused, same]
    exact .inl ⟨e, by rw [f.put_store], rfl⟩
  · have missing : (f.store s).contains name = false := by
      rw [Store.register_of_declarable declarable] at same
      by_contra known
      rw [if_pos (by simpa using known)] at same
      cases same
    rw [registered, same, f.contains_eq]
    exact .inr ⟨⟨declarable, missing⟩, rfl, congrArg Except.ok (f.place_eq s _)⟩

/-- The same of a request to remove a name, which must be there. -/
theorem remove_cases (sound : s.Sound) (name : String) :
    (s.contains f.kind name = false ∧ s.remove f.kind name = (.error (.notFound f.kind name), s) ∧
      s.vocabulary.remove f.kind name = .error (.notFound f.kind name)) ∨
        ∃ x, (f.store s).get name = .ok x ∧
          s.remove f.kind name = (.ok (f.embed x), f.put s ((f.store s).unregister name).2) ∧
            s.vocabulary.remove f.kind name =
              .ok (f.embed x, (f.put s ((f.store s).unregister name).2).vocabulary) := by
  obtain ⟨consistent, kind⟩ := f.sound sound
  rw [f.remove_eq, f.remove_vocabulary, f.contains_eq]
  rcases consistent.unregister_cases name with ⟨e, refused, same⟩ | ⟨x, unregistered, answer⟩
  · have missing : (f.store s).contains name = false := by
      cases held : (f.store s).get name with
      | error e => rw [Store.contains_eq_isOk, held]; rfl
      | ok x => cases (consistent.unregister_of_get held).1.symm.trans (congrArg Prod.fst same)
    have reason : e = .notFound f.kind name := by
      have absent : (f.store s).declarations[name]? = none := by
        simpa [Store.contains_eq] using missing
      have both := congrArg Prod.fst ((Store.unregister_of_missing absent).symm.trans same)
      rw [← kind]
      exact (Except.error.inj both).symm
    rw [refused, same, f.put_store, reason]
    exact .inl ⟨missing, rfl, rfl⟩
  · rw [unregistered, answer]
    exact .inr ⟨x, Store.get_of_unregister answer, rfl,
      congrArg Except.ok (congrArg _ (f.place_eq s _))⟩

end Shelf

/-- After any series of requests, a request to declare a name is answered exactly. -/
theorem Built.declares (built : s.Built) (name : String) (declaration : Declaration) :
    s.Declares name declaration := by
  obtain ⟨α, f, x, rfl⟩ := Shelf.exists_embed declaration
  have sound := built.sound
  have cases := f.declare_cases sound name x
  have of_declarable : Declarable name → s.declare name (f.embed x) =
      if s.contains f.kind name then (.error (.duplicate f.kind name), s)
      else (.ok (), f.put s ((f.store s).define name x)) := by
    intro declarable
    rw [f.declare_eq, Store.register_of_declarable declarable, f.contains_eq, (f.sound sound).2]
    cases (f.store s).contains name with
    | true => exact congrArg (Except.error _, ·) (f.put_store s)
    | false => rfl
  constructor
  case empty =>
    rintro rfl
    rw [f.declare_eq, Store.register_of_empty, f.put_store]
  case reserved =>
    intro before c behind split reserved first
    have found : Character.firstReserved? name = some c := by
      rw [Character.firstReserved?, List.find?_eq_some_iff_append]
      exact ⟨reserved, before, behind, split, by simpa using first⟩
    rw [f.declare_eq, Store.register_of_reserved _ _ found, f.put_store]
  case duplicate =>
    intro declarable known
    rw [f.kind_embed] at known ⊢
    rw [of_declarable declarable, if_pos known]
  case declared =>
    intro declarable missing
    rw [f.kind_embed] at missing ⊢
    rw [of_declarable declarable, missing]
    exact ⟨_, rfl, f.changed_of_define s name x⟩
  case refused =>
    intro e t refused
    rcases cases with ⟨reason, same, vocabulary⟩ | ⟨-, same, -⟩
    · cases same.symm.trans refused
      exact ⟨rfl, vocabulary⟩
    · cases same.symm.trans refused
  case granted =>
    intro t granted
    have after : t.Built := by
      have next := built.declare name (f.embed x)
      rwa [granted] at next
    rcases cases with ⟨reason, same, -⟩ | ⟨⟨-, missing⟩, same, vocabulary⟩
    · cases same.symm.trans granted
    · cases same.symm.trans granted
      refine ⟨⟨_, vocabulary, after.sound.consistent.keeps⟩, ?_⟩
      -- What was declared is held, so that it can be removed.
      have held : (f.store (f.put s ((f.store s).define name x))).get name = .ok x := by
        rw [f.store_put, Store.get_define, if_pos rfl]
      rcases f.remove_cases after.sound name with ⟨absent, -, -⟩ | ⟨y, found, removed, -⟩
      · rw [f.contains_eq, Store.contains_eq_isOk, held] at absent
        cases absent
      · cases held.symm.trans found
        rw [f.kind_embed, removed]
        refine ⟨_, rfl, (f.changed_of_define s name x).back
          (f.changed_of_unregister after.sound held) (sound.get_of_missing missing)
          sound.consistent ?_⟩
        have last := after.remove f.kind name
        rw [removed] at last
        exact last.sound.consistent

/-- After any series of requests, a request to remove a name is answered exactly. -/
theorem Built.removes (built : s.Built) (kind : Kind) (name : String) : s.Removes kind name := by
  obtain ⟨α, f, rfl⟩ := Shelf.exists_kind kind
  have sound := built.sound
  have cases := f.remove_cases sound name
  constructor
  case missing =>
    intro missing
    rcases cases with ⟨-, refused, -⟩ | ⟨x, held, -⟩
    · exact refused
    · rw [f.contains_eq, Store.contains_eq_isOk, held] at missing
      cases missing
  case removed =>
    intro known
    rcases cases with ⟨missing, -⟩ | ⟨x, held, removed, -⟩
    · cases missing.symm.trans known
    · refine ⟨f.embed x, _, ?_, f.kind_embed x, removed, f.changed_of_unregister sound held⟩
      rw [f.get_eq, held]
      rfl
  case refused =>
    intro e t refused
    rcases cases with ⟨-, same, vocabulary⟩ | ⟨x, -, same, -⟩
    · cases same.symm.trans refused
      exact ⟨rfl, vocabulary⟩
    · cases same.symm.trans refused
  case granted =>
    intro declaration t granted
    have after : t.Built := by
      have next := built.remove f.kind name
      rwa [granted] at next
    rcases cases with ⟨-, same, -⟩ | ⟨x, held, same, vocabulary⟩
    · cases same.symm.trans granted
    · cases same.symm.trans granted
      refine ⟨⟨_, vocabulary, after.sound.consistent.keeps⟩, ?_⟩
      have changed := f.changed_of_unregister sound held
      have before : s.get f.kind name = .ok (f.embed x) := by
        rw [f.get_eq, held]
        rfl
      -- What is held was declarable, and its name is free again.
      have declarable : Declarable name := by
        obtain ⟨consistent, -⟩ := f.sound sound
        refine consistent.declarable name ((consistent.keys name).2 ?_)
        rw [Store.contains_eq_isOk, held]
        rfl
      have missing : (f.put s ((f.store s).unregister name).2).contains (f.embed x).kind name =
          false := by
        rw [changed.contains, f.kind_embed, if_pos ⟨rfl, rfl⟩]
        rfl
      obtain ⟨u, declared, back⟩ := (after.declares name (f.embed x)).declared declarable missing
      rw [f.kind_embed] at back
      refine ⟨u, declared, changed.back back before sound.consistent ?_⟩
      have last := after.declare name (f.embed x)
      rw [declared] at last
      exact last.sound.consistent

/-! ## Series of requests -/

/-- Declarations that are all granted, in turn. -/
inductive Declared : Storage → List (String × Declaration) → Storage → Prop where
  | nil (s : Storage) : Declared s [] s
  | cons {s t u : Storage} {name : String} {declaration : Declaration}
      {rest : List (String × Declaration)} (first : s.declare name declaration = (.ok (), t))
      (others : Declared t rest u) : Declared s ((name, declaration) :: rest) u

/-- A series of declarations comes as far as its first refused one: those before it are
    granted and stay, its refusal is the answer, and those behind it have no effect. -/
structure DeclaresInTurn (s : Storage) (entries : Entries) : Prop where
  stops : ∃ before behind t, entries.declarations = before ++ behind ∧ Declared s before t ∧
    ((behind = [] ∧ s.declareAll entries = (.ok (), t)) ∨
      ∃ name declaration later e, behind = (name, declaration) :: later ∧
        t.declare name declaration = (.error e, t) ∧ s.declareAll entries = (.error e, t))
  /-- The vocabulary that is kept comes as far. -/
  vocabulary : (s.declareAll entries).2.Keeps (s.vocabulary.declareAll entries).vocabulary ∧
    (s.declareAll entries).1 = match (s.vocabulary.declareAll entries).failure with
      | some e => .error e
      | none => .ok ()

theorem Shelf.stops {α : Type} (f : Shelf α) (s : Storage) (l : List (String × α)) :
    ∃ before behind t, (f.entries l).declarations = before ++ behind ∧ Declared s before t ∧
      ((behind = [] ∧ s.declareAll (f.entries l) = (.ok (), t)) ∨
        ∃ name declaration later e, behind = (name, declaration) :: later ∧
          t.declare name declaration = (.error e, t) ∧
            s.declareAll (f.entries l) = (.error e, t)) := by
  rw [f.declarations_entries, f.declareAll_eq]
  induction l generalizing s with
  | nil => exact ⟨[], [], s, rfl, .nil s, .inl ⟨rfl, congrArg (Except.ok (), ·) (f.put_store s)⟩⟩
  | cons entry rest ih =>
    obtain ⟨name, x⟩ := entry
    have first := f.declare_eq s name x
    rw [Store.registerAll, List.map_cons]
    cases answer : (f.store s).register name x with
    | mk result next =>
      rw [answer] at first
      cases result with
      | error e =>
        have same := Store.eq_of_register_error (congrArg Prod.fst answer)
        cases answer.symm.trans same
        rw [f.put_store] at first
        exact ⟨[], _, s, rfl, .nil s, .inr ⟨_, _, _, e, rfl, first,
          congrArg (Except.error e, ·) (f.put_store s)⟩⟩
      | ok _ =>
        obtain ⟨before, behind, t, split, declared, outcome⟩ := ih (f.put s next)
        rw [f.store_put, f.put_put] at outcome
        exact ⟨_ :: before, behind, t, congrArg (_ :: ·) split, .cons first declared, outcome⟩

theorem Built.declaresInTurn (built : s.Built) (entries : Entries) :
    s.DeclaresInTurn entries := by
  obtain ⟨α, f, l, rfl⟩ := Shelf.exists_entries entries
  have after := (built.declareAll (f.entries l)).sound.consistent
  have same := (built.sound.consistent.declareAll (f.entries l)).2
  refine ⟨f.stops s l, same ▸ after.keeps, ?_⟩
  rw [f.declareAll_eq, (f.declareAll_vocabulary s l).2]
  exact ((f.sound built.sound).1.registerAll l).2.2

/-- After any series of requests a storage answers as a finite map that lists its names, and
    every vocabulary that requests lead to is kept by such a storage. -/
theorem answers_of_built :
    (∀ s : Storage, s.Built →
      (∀ name declaration, s.Declares name declaration) ∧ (∀ kind name, s.Removes kind name) ∧
        (∀ entries, s.DeclaresInTurn entries) ∧ s.Keeps s.vocabulary) ∧
      ∀ v : Vocabulary, v.Reachable → ∃ s : Storage, s.Built ∧ s.vocabulary = v := by
  refine ⟨fun s built => ?_, fun v reachable => exists_built reachable⟩
  exact ⟨built.declares, built.removes, built.declaresInTurn, built.sound.consistent.keeps⟩

/-- A constant that is declared twice: the second time it is refused, and it can be removed. -/
theorem answers_of_built_repeated :
    empty.Built ∧ ∃ t, empty.declare "a" (.constant 1) = (.ok (), t) ∧ t.Built ∧
      t.declare "a" (.constant 2) = (.error (.duplicate .constant "a"), t) ∧
        t.declare "a)" (.constant 2) = (.error (.reservedCharacter "a)" ')'), t) ∧
          t.get .constant "a" = .ok (.constant 1) ∧
            ∃ u, t.remove .constant "a" = (.ok (.constant 1), u) ∧ u.Same empty := by
  have declarable : Declarable "a" := by simp [Declarable, Character.isReserved]
  have missing : empty.contains .constant "a" = false := by
    simp [contains, empty, Store.contains, Store.empty]
  obtain ⟨declares, -⟩ := answers_of_built.1 empty .empty
  obtain ⟨t, declared, changed⟩ := (declares "a" (.constant 1)).declared declarable missing
  have built : t.Built := by
    have next := Built.empty.declare "a" (.constant 1)
    rwa [declared] at next
  obtain ⟨again, -⟩ := answers_of_built.1 t built
  have known : t.contains .constant "a" = true := by
    rw [changed.contains]
    rfl
  refine ⟨.empty, t, declared, built, (again "a" (.constant 2)).duplicate declarable known,
    (again "a)" (.constant 2)).reserved ['a'] ')' [] rfl rfl (by simp [Character.isReserved]), ?_,
    ((declares "a" (.constant 1)).granted t declared).2⟩
  rw [changed.get]
  rfl

end Storage

end Calculator
