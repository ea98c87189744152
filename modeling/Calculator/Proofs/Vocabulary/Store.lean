import Calculator.Proofs.Vocabulary.Lookup

/-!
# Tables as they are kept

A store finds a declaration by its name in a hash map and hands the names out from a sorted
listing. Requests change one and the other, and find a place in the listing by binary
search. The map and the listing never part: a store lists exactly the names that it finds,
each once and in order, so it is a table, and every request on a store is the request on
this table.
-/
namespace Calculator

/-- How two names stand to each other in a listing: longer names first, and names of one
    length in their own order. -/
def Table.order (a b : String) : Ordering := (compare b.length a.length).then (compare a b)

/-- Where a search ends: at a name, or at the place that it would have. -/
inductive Place where
  | found (index : Nat)
  | missing (index : Nat)

def Place.index : Place → Nat
  | .found i => i
  | .missing i => i

/-- Declarations of one kind, under their names and with their names in order. -/
structure Store (α : Type) where
  kind : Kind
  declarations : Std.HashMap String α
  listing : List String

namespace Store

variable {α : Type}

def empty (kind : Kind) : Store α := ⟨kind, ∅, []⟩

def size (s : Store α) : Nat := s.declarations.size

def contains (s : Store α) (name : String) : Bool := s.declarations.contains name

def names (s : Store α) : List String := s.listing

/-- The declaration under a name, or the reason why there is none. -/
def get (s : Store α) (name : String) : Except NameError α :=
  match s.declarations[name]? with
  | some declaration => .ok declaration
  | none => .error (.notFound s.kind name)

/-- The listed names whose declarations meet a condition, with these. -/
def longestFirstWhere (s : Store α) (condition : α → Bool) : List (String × α) :=
  s.listing.filterMap fun name =>
    (s.declarations[name]?.filter condition).map fun declaration => (name, declaration)

def longestFirst (s : Store α) : List (String × α) := s.longestFirstWhere fun _ => true

/-- Looks for a name between two places of a listing. -/
def searchWithin (listing : List String) (name : String) (low high : Nat)
    (bound : high ≤ listing.length) : Place :=
  if _more : low < high then
    let middle := (low + high) / 2
    match Table.order listing[middle] name with
    | .eq => .found middle
    | .lt => searchWithin listing name (middle + 1) high bound
    | .gt => searchWithin listing name low middle (by omega)
  else .missing low
termination_by high - low

def search (listing : List String) (name : String) : Place :=
  searchWithin listing name 0 listing.length le_rfl

/-- The store with a declaration under a name, whatever was there before; a new name is put
    at its place in the listing. -/
def define (s : Store α) (name : String) (declaration : α) : Store α where
  kind := s.kind
  declarations := s.declarations.insert name declaration
  listing :=
    if s.contains name then s.listing
    else s.listing.insertIdx (search s.listing name).index name

def refusal? (s : Store α) (name : String) : Option NameError :=
  if name = "" then some .emptyName
  else
    match Character.firstReserved? name with
    | some character => some (.reservedCharacter name character)
    | none => if s.contains name then some (.duplicate s.kind name) else none

def register (s : Store α) (name : String) (declaration : α) : Except NameError Unit × Store α :=
  match s.refusal? name with
  | some e => (.error e, s)
  | none => (.ok (), s.define name declaration)

/-- Declares names in turn, up to the first that is refused. -/
def registerAll (s : Store α) : List (String × α) → Except NameError Unit × Store α
  | [] => (.ok (), s)
  | (name, declaration) :: rest =>
    match s.register name declaration with
    | (.error e, next) => (.error e, next)
    | (.ok (), next) => next.registerAll rest

/-- Removes a name and gives the declaration that was under it. The listing is left alone if
    the search does not end at the name. -/
def unregister (s : Store α) (name : String) : Except NameError α × Store α :=
  match s.declarations[name]? with
  | none => (.error (.notFound s.kind name), s)
  | some declaration =>
    (.ok declaration,
      { s with
        declarations := s.declarations.erase name
        listing :=
          match search s.listing name with
          | .found i => s.listing.eraseIdx i
          | .missing _ => s.listing })

def copyInto (source target : Store α) (overwrite : Bool) : Store α :=
  source.longestFirst.foldl
    (fun t entry => if t.contains entry.1 && !overwrite then t else t.define entry.1 entry.2)
    target

def ofEntries (kind : Kind) (entries : List (String × α)) : Store α :=
  entries.foldl (fun s entry => s.define entry.1 entry.2) (empty kind)

/-- The table that a store keeps. -/
def table (s : Store α) : Table α := ⟨s.kind, s.longestFirst⟩

end Store

/-! ## The order of a listing -/

namespace Table

variable {a b : String}

theorem order_eq_lt_iff : order a b = .lt ↔ Precedes a b := by
  rw [order, Ordering.then_eq_lt, Nat.compare_eq_lt, Nat.compare_eq_eq, compare_lt_iff_lt, Precedes,
    eq_comm (a := a.length)]

theorem order_eq_gt_iff : order a b = .gt ↔ Precedes b a := by
  rw [order, Ordering.then_eq_gt, Nat.compare_eq_gt, Nat.compare_eq_eq, compare_gt_iff_gt, Precedes]

theorem eq_of_order_eq_eq (same : order a b = .eq) : a = b := by
  rw [order, Ordering.then_eq_eq] at same
  exact compare_eq_iff_eq.1 same.2

end Table

namespace Store

open Table (Precedes Declarable precedes_irrefl)

/-! ## Searching a listing -/

section

variable {listing : List String} {name : String}

/-- Where a name is in a listing, or where it would have to be put. -/
inductive Finds (listing : List String) (name : String) : Place → Prop where
  | found {i : Nat} (bound : i < listing.length) (here : listing[i] = name) :
      Finds listing name (.found i)
  | missing {before behind : List String} (split : listing = before ++ behind)
      (first : ∀ a ∈ before, Precedes a name) (last : ∀ a ∈ behind, Precedes name a) :
      Finds listing name (.missing before.length)

theorem searchWithin_finds (sorted : listing.Pairwise Precedes) {low high : Nat}
    (bound : high ≤ listing.length) (window : low ≤ high)
    (before : ∀ i (inside : i < listing.length), i < low → Precedes listing[i] name)
    (behind : ∀ i (inside : i < listing.length), high ≤ i → Precedes name listing[i]) :
    Finds listing name (searchWithin listing name low high bound) := by
  rw [List.pairwise_iff_getElem] at sorted
  fun_induction searchWithin listing name low high bound with
  | case1 low high bound more middle same =>
    exact .found _ (Table.eq_of_order_eq_eq same)
  | case2 low high bound more middle less ih =>
    rw [Table.order_eq_lt_iff] at less
    refine ih (by omega) (fun i inside within => ?_) behind
    rcases Nat.lt_succ_iff_lt_or_eq.1 within with earlier | rfl
    · exact (sorted i middle inside (by omega) earlier).trans less
    · exact less
  | case3 low high bound more middle greater ih =>
    rw [Table.order_eq_gt_iff] at greater
    refine ih (by omega) before fun i inside within => ?_
    rcases Nat.lt_or_eq_of_le within with later | rfl
    · exact greater.trans (sorted middle i (by omega) inside later)
    · exact greater
  | case4 low high bound stop =>
    have length : (listing.take low).length = low := by
      rw [List.length_take]
      omega
    rw [← length]
    refine .missing (List.take_append_drop low listing).symm (fun a listed => ?_) fun a listed => ?_
    · obtain ⟨i, within, rfl⟩ := List.mem_take_iff_getElem.1 listed
      exact before i (by omega) (by omega)
    · obtain ⟨i, within, rfl⟩ := List.mem_drop_iff_getElem.1 listed
      exact behind _ _ (by omega)

theorem search_finds (sorted : listing.Pairwise Precedes) (name : String) :
    Finds listing name (search listing name) :=
  searchWithin_finds sorted le_rfl (Nat.zero_le _) (fun _ _ none => absurd none (Nat.not_lt_zero _))
    fun _ inside beyond => absurd inside (Nat.not_lt.2 beyond)

theorem nodup_of_sorted (sorted : listing.Pairwise Precedes) : listing.Nodup := by
  refine sorted.imp ?_
  rintro a _ before rfl
  exact precedes_irrefl a before

/-- A name that is not listed is put at its place. -/
theorem exists_insertIdx (sorted : listing.Pairwise Precedes) (absent : name ∉ listing) :
    ∃ before behind, listing = before ++ behind ∧
      listing.insertIdx (search listing name).index name = before ++ name :: behind ∧
        (∀ a ∈ before, Precedes a name) ∧ ∀ a ∈ behind, Precedes name a := by
  have inserted : ∀ before behind : List String,
      (before ++ behind).insertIdx before.length name = before ++ name :: behind := by
    intro before behind
    induction before with
    | nil => rfl
    | cons a rest ih => exact congrArg (a :: ·) ih
  have finds := search_finds sorted name
  generalize search listing name = place at finds ⊢
  cases finds with
  | found bound here => exact absurd (here ▸ List.getElem_mem bound) absent
  | @missing before behind split first last =>
    exact ⟨before, behind, split, split ▸ inserted before behind, first, last⟩

/-- A listed name is taken out. -/
theorem erase_of_search (sorted : listing.Pairwise Precedes) (listed : name ∈ listing) :
    ∃ i, search listing name = .found i ∧ listing.eraseIdx i = listing.erase name := by
  have finds := search_finds sorted name
  generalize search listing name = place at finds ⊢
  cases finds with
  | @found i bound here =>
    refine ⟨i, rfl, ?_⟩
    rw [← here, (nodup_of_sorted sorted).erase_getElem]
  | @missing before behind split first last =>
    rw [split, List.mem_append] at listed
    rcases listed with inside | inside
    · exact absurd (first name inside) (precedes_irrefl name)
    · exact absurd (last name inside) (precedes_irrefl name)

end

/-! ## The map and the listing -/

variable {s t : Store α} {name other : String} {declaration : α}

theorem contains_eq (s : Store α) (name : String) :
    s.contains name = s.declarations[name]?.isSome := Std.HashMap.contains_eq_isSome_getElem?

theorem find_define (s : Store α) (name : String) (declaration : α) (other : String) :
    (s.define name declaration).declarations[other]? =
      if other = name then some declaration else s.declarations[other]? := by
  change (s.declarations.insert name declaration)[other]? = _
  rw [Std.HashMap.getElem?_insert]
  simp only [beq_iff_eq, eq_comm (a := name)]

/-- The map and the listing of a store hold the same names, which are valid and in order. -/
structure Consistent (s : Store α) : Prop where
  sorted : s.listing.Pairwise Precedes
  keys : ∀ name, name ∈ s.listing ↔ s.contains name = true
  declarable : ∀ name ∈ s.listing, Declarable name

theorem consistent_empty (kind : Kind) : (empty kind : Store α).Consistent where
  sorted := .nil
  keys name := by simp [empty, contains]
  declarable := nofun

/-- A declaration takes the place of one of the same name, or its name is listed. -/
theorem Consistent.define (consistent : s.Consistent) (declarable : Declarable name)
    (declaration : α) : (s.define name declaration).Consistent := by
  have held : ∀ other, (s.define name declaration).contains other = true ↔
      other = name ∨ s.contains other = true := by
    intro other
    rw [contains_eq, find_define, contains_eq]
    by_cases same : other = name <;> simp [same]
  by_cases known : s.contains name = true
  · have listing : (s.define name declaration).listing = s.listing := if_pos known
    refine ⟨listing ▸ consistent.sorted, fun other => ?_, listing ▸ consistent.declarable⟩
    rw [listing, held, consistent.keys]
    exact ⟨.inr, fun either => either.elim (fun same => same ▸ known) id⟩
  · have absent : name ∉ s.listing := fun listed => known ((consistent.keys name).1 listed)
    obtain ⟨before, behind, split, inserted, first, last⟩ :=
      exists_insertIdx consistent.sorted absent
    have listing : (s.define name declaration).listing = before ++ name :: behind :=
      (if_neg known).trans inserted
    have listed : ∀ other, other ∈ before ++ name :: behind ↔ other = name ∨ other ∈ s.listing := by
      intro other
      rw [split]
      simp [or_left_comm]
    refine ⟨?_, fun other => ?_, fun other inside => ?_⟩
    · have sorted := consistent.sorted
      rw [split, List.pairwise_append] at sorted
      obtain ⟨left, right, across⟩ := sorted
      rw [listing, List.pairwise_append, List.pairwise_cons]
      refine ⟨left, ⟨last, right⟩, fun a inside b beyond => ?_⟩
      rcases List.mem_cons.1 beyond with rfl | beyond
      · exact first a inside
      · exact across a inside b beyond
    · rw [listing, listed, held, consistent.keys]
    · rw [listing, listed] at inside
      rcases inside with rfl | inside
      · exact declarable
      · exact consistent.declarable other inside

theorem find_erase (s : Store α) (name other : String) :
    (s.declarations.erase name)[other]? =
      if other = name then none else s.declarations[other]? := by
  rw [Std.HashMap.getElem?_erase]
  simp only [beq_iff_eq, eq_comm (a := name)]

/-- Removing a name that is held takes it out of the map and out of the listing. -/
theorem Consistent.unregister_of_held (consistent : s.Consistent)
    (held : s.declarations[name]? = some declaration) :
    s.unregister name =
      (.ok declaration, ⟨s.kind, s.declarations.erase name, s.listing.erase name⟩) := by
  have listed : name ∈ s.listing := by rw [consistent.keys, contains_eq, held, Option.isSome_some]
  obtain ⟨i, found, erased⟩ := erase_of_search consistent.sorted listed
  rw [unregister, held]
  dsimp only
  rw [found, ← erased]

theorem unregister_of_missing (missing : s.declarations[name]? = none) :
    s.unregister name = (.error (.notFound s.kind name), s) := by
  rw [unregister, missing]

theorem Consistent.unregister (consistent : s.Consistent) (name : String) :
    (s.unregister name).2.Consistent := by
  cases held : s.declarations[name]? with
  | none => rwa [unregister_of_missing held]
  | some declaration =>
    rw [consistent.unregister_of_held held]
    have listed : ∀ other, other ∈ s.listing.erase name ↔ other ≠ name ∧ other ∈ s.listing :=
      fun other => (nodup_of_sorted consistent.sorted).mem_erase_iff
    refine ⟨consistent.sorted.sublist List.erase_sublist, fun other => ?_, fun other inside => ?_⟩
    · rw [listed, consistent.keys, contains_eq, contains_eq, find_erase]
      by_cases same : other = name <;> simp [same]
    · exact consistent.declarable other ((listed other).1 inside).2

/-! ## The table that a store keeps -/

theorem mem_longestFirstWhere_iff (s : Store α) (condition : α → Bool) :
    (name, declaration) ∈ s.longestFirstWhere condition ↔
      name ∈ s.listing ∧ s.declarations[name]? = some declaration ∧ condition declaration = true := by
  simp [longestFirstWhere, Option.filter_eq_some_iff]

/-- The names that are handed out for a condition are listed in the same order. -/
theorem names_longestFirstWhere (s : Store α) (condition : α → Bool) :
    (s.longestFirstWhere condition).map (·.1) =
      s.listing.filter fun name => s.declarations[name]?.any condition := by
  rw [longestFirstWhere, List.map_filterMap, ← List.filterMap_eq_filter]
  have each : ∀ (name : String) (held : Option α),
      ((held.filter condition).map fun declaration => (name, declaration)).map (·.1) =
        if held.any condition = true then some name else none := by
    intro name held
    cases held with
    | none => rfl
    | some declaration => cases met : condition declaration <;> simp [met]
  exact List.filterMap_congr fun name _ => each name _

section

variable (consistent : s.Consistent)
include consistent

theorem Consistent.mem_iff (condition : α → Bool) :
    (name, declaration) ∈ s.longestFirstWhere condition ↔
      s.declarations[name]? = some declaration ∧ condition declaration = true := by
  rw [mem_longestFirstWhere_iff]
  refine ⟨And.right, fun held => ⟨?_, held⟩⟩
  rw [consistent.keys, contains_eq, held.1, Option.isSome_some]

theorem Consistent.names_longestFirst : s.table.names = s.names := by
  have names : s.table.names = (s.longestFirstWhere fun _ => true).map (·.1) := rfl
  rw [names, names_longestFirstWhere, Store.names, List.filter_eq_self]
  intro name listed
  rw [consistent.keys, contains_eq] at listed
  obtain ⟨declaration, held⟩ := Option.isSome_iff_exists.1 listed
  rw [held, Option.any_some]

theorem Consistent.wellFormed : s.table.WellFormed := by
  constructor
  · have names : s.table.names.Pairwise Precedes := by
      rw [consistent.names_longestFirst]
      exact consistent.sorted
    exact List.pairwise_map.1 names
  · rintro ⟨name, declaration⟩ listed
    exact consistent.declarable name ((s.mem_longestFirstWhere_iff _).1 listed).1

theorem Consistent.find?_table (name : String) : s.table.find? name = s.declarations[name]? := by
  refine Option.ext fun declaration => ?_
  rw [consistent.wellFormed.find?_eq_some_iff]
  exact (consistent.mem_iff _).trans (and_iff_left rfl)

theorem Consistent.contains_table (name : String) : s.table.contains name = s.contains name := by
  rw [Table.contains, consistent.find?_table, contains_eq]

theorem Consistent.refusal?_table (name : String) : s.table.refusal? name = s.refusal? name := by
  rw [Table.refusal?, refusal?, consistent.contains_table]
  rfl

/-- Declaring in a store is declaring in its table. -/
theorem Consistent.table_define (declarable : Declarable name) (declaration : α) :
    (s.define name declaration).table = s.table.define name declaration := by
  have defined := consistent.define declarable declaration
  refine defined.wellFormed.ext (consistent.wellFormed.define declarable declaration) rfl
    fun other => ?_
  rw [defined.find?_table, find_define, Table.find?_define, consistent.find?_table]

/-- A request to declare a name is refused and changes nothing, or declares it, in the store
    and in its table alike. -/
theorem Consistent.register_cases (name : String) (declaration : α) :
    (∃ e, s.table.register name declaration = .error e ∧
      s.register name declaration = (.error e, s)) ∨
        Declarable name ∧
          s.table.register name declaration = .ok (s.define name declaration).table ∧
            s.register name declaration = (.ok (), s.define name declaration) := by
  have same := consistent.refusal?_table name
  rw [register, Table.register, same]
  cases accepted : s.refusal? name with
  | some e => exact .inl ⟨e, rfl, rfl⟩
  | none =>
    have declarable := ((s.table.refusal?_eq_none_iff name).1 (same.trans accepted)).1
    exact .inr ⟨declarable, congrArg Except.ok (consistent.table_define declarable declaration).symm,
      rfl⟩

/-- The same of a request to remove a name. -/
theorem Consistent.unregister_cases (name : String) :
    (∃ e, s.table.unregister name = .error e ∧ s.unregister name = (.error e, s)) ∨
      ∃ declaration, s.table.unregister name = .ok (declaration, (s.unregister name).2.table) ∧
        (s.unregister name).1 = .ok declaration := by
  have removed := consistent.unregister name
  cases held : s.declarations[name]? with
  | none =>
    refine .inl ⟨_, ?_, unregister_of_missing held⟩
    rw [Table.unregister, consistent.find?_table, held]
    rfl
  | some declaration =>
    have stored := consistent.unregister_of_held held
    rw [stored] at removed ⊢
    refine .inr ⟨declaration, ?_, rfl⟩
    obtain ⟨u, unregistered⟩ : ∃ u, s.table.unregister name = .ok (declaration, u) := by
      rw [Table.unregister, consistent.find?_table, held]
      exact ⟨_, rfl⟩
    have kind : u.kind = s.kind := by
      obtain ⟨-, rfl⟩ := Table.of_unregister unregistered
      rfl
    have same : u = table ⟨s.kind, s.declarations.erase name, s.listing.erase name⟩ := by
      refine (consistent.wellFormed.unregister unregistered).ext removed.wellFormed kind
        fun other => ?_
      rw [Table.find?_of_unregister unregistered, removed.find?_table, find_erase,
        consistent.find?_table]
    rw [unregistered, same]

end

/-- A series of declarations stops where it stops in the table. -/
theorem Consistent.registerAll (consistent : s.Consistent) (entries : List (String × α)) :
    (s.registerAll entries).2.Consistent ∧
      (s.registerAll entries).2.table = (s.table.registerAll entries).table ∧
        (s.registerAll entries).1 =
          match (s.table.registerAll entries).failure with
          | some e => .error e
          | none => .ok () := by
  induction entries generalizing s with
  | nil => exact ⟨consistent, rfl, rfl⟩
  | cons entry rest ih =>
    obtain ⟨name, declaration⟩ := entry
    rw [Store.registerAll, Table.registerAll]
    rcases consistent.register_cases name declaration with
      ⟨e, refused, same⟩ | ⟨declarable, registered, same⟩
    · rw [refused, same]
      exact ⟨consistent, rfl, rfl⟩
    · rw [registered, same]
      exact ih (consistent.define declarable declaration)

/-- Entries with valid names that are declared in turn, whatever was there before. -/
theorem Consistent.foldl {entries : List (String × α)} (consistent : s.Consistent)
    (declarable : ∀ entry ∈ entries, Declarable entry.1) (overwrite : Bool) :
    (entries.foldl (fun t entry =>
      if t.contains entry.1 && !overwrite then t else t.define entry.1 entry.2) s).Consistent ∧
    (entries.foldl (fun t entry =>
      if t.contains entry.1 && !overwrite then t else t.define entry.1 entry.2) s).table =
      entries.foldl (fun t entry =>
        if t.contains entry.1 && !overwrite then t else t.define entry.1 entry.2) s.table := by
  induction entries generalizing s with
  | nil => exact ⟨consistent, rfl⟩
  | cons entry rest ih =>
    have others : ∀ other ∈ rest, Declarable other.1 :=
      fun other behind => declarable other (List.mem_cons_of_mem _ behind)
    have first := declarable entry List.mem_cons_self
    rw [List.foldl_cons, List.foldl_cons, consistent.contains_table]
    split
    · exact ih consistent others
    · rw [← consistent.table_define first]
      exact ih (consistent.define first entry.2) others

theorem Consistent.copyInto {source : Store α} (origin : source.Consistent)
    (destination : t.Consistent) (overwrite : Bool) :
    (source.copyInto t overwrite).Consistent ∧
      (source.copyInto t overwrite).table = source.table.copyInto t.table overwrite :=
  destination.foldl origin.wellFormed.2 overwrite

theorem consistent_ofEntries (kind : Kind) {entries : List (String × α)}
    (declarable : ∀ entry ∈ entries, Declarable entry.1) :
    (ofEntries kind entries).Consistent ∧
      (ofEntries kind entries).table = Standard.tableOf kind entries := by
  have built := (consistent_empty kind).foldl declarable true
  simp only [Bool.not_true, Bool.and_false, Bool.false_eq_true, if_false] at built
  exact built

end Store

end Calculator
