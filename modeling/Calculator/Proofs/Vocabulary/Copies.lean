import Calculator.Evaluation.Evaluator
import Calculator.Proofs.Vocabulary.Requests

/-!
# Copies

A vocabulary that is copied into another one is joined with it: where both hold a name, one
of them has the say, and nothing is lost or added besides. To copy once more changes nothing,
and a copy into an empty vocabulary is the vocabulary itself, so every way to take a snapshot
gives the same names in the same order as taking the vocabulary over.
-/
namespace Calculator

/-! ## Tables -/

namespace Table

variable {α : Type} {s t : Table α} {kind : Kind}

theorem mem_names_iff (t : Table α) (name : String) :
    name ∈ t.names ↔ (t.find? name).isSome = true := by
  simp [names, find?]

theorem WellFormed.names_sorted (wellFormed : t.WellFormed) : t.names.Pairwise Precedes :=
  List.pairwise_map.2 wellFormed.1

/-- A copy finds what one of its tables has under a name. -/
theorem Reachable.get_copyInto (origin : s.Reachable kind) (destination : t.Reachable kind)
    (overwrite : Bool) (name : String) :
    (s.copyInto t overwrite).get name =
      if name ∈ s.names ∧ (overwrite = true ∨ name ∉ t.names) then s.get name else t.get name := by
  have copied := destination.copyInto origin.wellFormed overwrite
  simp only [get, mem_names_iff, copied.kind_eq, origin.kind_eq, destination.kind_eq,
    origin.wellFormed.find?_copyInto]
  cases overwrite with
  | true => cases s.find? name <;> simp
  | false => cases t.find? name <;> cases s.find? name <;> simp

end Table

/-! ## Vocabularies -/

namespace Vocabulary

/-- A vocabulary that is copied into another one is joined with it. -/
structure Joins (source target : Vocabulary) (overwrite : Bool) : Prop where
  /-- The source has the say where it may overwrite or the target lacks the name. -/
  get : ∀ kind name, (source.copyTo target overwrite).get kind name =
    if name ∈ source.names kind ∧ (overwrite = true ∨ name ∉ target.names kind)
    then source.get kind name else target.get kind name
  /-- Nothing else is listed, and the listing is in order. -/
  names : ∀ kind name, name ∈ (source.copyTo target overwrite).names kind ↔
    name ∈ source.names kind ∨ name ∈ target.names kind
  sorted : ∀ kind, ((source.copyTo target overwrite).names kind).Pairwise Table.Precedes
  again : source.copyTo (source.copyTo target overwrite) overwrite =
    source.copyTo target overwrite
  kept : overwrite = false → ∀ kind name declaration, target.get kind name = .ok declaration →
    (source.copyTo target overwrite).get kind name = .ok declaration

variable {v source target : Vocabulary}

theorem Reachable.get_copyTo (origin : source.Reachable) (destination : target.Reachable)
    (overwrite : Bool) (kind : Kind) (name : String) :
    (source.copyTo target overwrite).get kind name =
      if name ∈ source.names kind ∧ (overwrite = true ∨ name ∉ target.names kind)
      then source.get kind name else target.get kind name := by
  have left := origin.tables
  have right := destination.tables
  cases kind with
  | constant =>
    have copied := left.constants.get_copyInto right.constants overwrite name
    exact (congrArg (Except.map Declaration.constant) copied).trans (apply_ite _ _ _ _)
  | function =>
    have copied := left.functions.get_copyInto right.functions overwrite name
    exact (congrArg (Except.map Declaration.function) copied).trans (apply_ite _ _ _ _)
  | operator =>
    have copied := left.operators.get_copyInto right.operators overwrite name
    exact (congrArg (Except.map Declaration.operator) copied).trans (apply_ite _ _ _ _)

/-- The names of a kind are those with a declaration. -/
theorem mem_names_iff (v : Vocabulary) (kind : Kind) (name : String) :
    name ∈ v.names kind ↔ ∃ declaration, v.get kind name = .ok declaration := by
  have held : ∀ {α : Type} (t : Table α) (embed : α → Declaration),
      name ∈ t.names ↔ ∃ declaration, (t.get name).map embed = .ok declaration := by
    intro α t embed
    rw [Table.mem_names_iff, Table.get]
    cases t.find? name with
    | none => simp [Except.map]
    | some x => exact ⟨fun _ => ⟨embed x, rfl⟩, fun _ => rfl⟩
  cases kind with
  | constant => exact held v.constants .constant
  | function => exact held v.functions .function
  | operator => exact held v.operators .operator

theorem WellFormed.names_sorted (wellFormed : v.WellFormed) (kind : Kind) :
    (v.names kind).Pairwise Table.Precedes := by
  cases kind with
  | constant => exact wellFormed.constants.names_sorted
  | function => exact wellFormed.functions.names_sorted
  | operator => exact wellFormed.operators.names_sorted

theorem Reachable.joins (origin : source.Reachable) (destination : target.Reachable)
    (overwrite : Bool) : source.Joins target overwrite := by
  have get := origin.get_copyTo destination overwrite
  have copied : (source.copyTo target overwrite).Reachable := .copyTo overwrite origin destination
  have names : ∀ kind name, name ∈ (source.copyTo target overwrite).names kind ↔
      name ∈ source.names kind ∨ name ∈ target.names kind := by
    intro kind name
    rw [mem_names_iff, get]
    by_cases decides : name ∈ source.names kind ∧ (overwrite = true ∨ name ∉ target.names kind)
    · rw [if_pos decides, ← mem_names_iff]
      exact ⟨.inl, fun _ => decides.1⟩
    · rw [if_neg decides, ← mem_names_iff]
      refine ⟨.inr, fun either => either.elim (fun listed => ?_) id⟩
      by_contra missing
      exact decides ⟨listed, .inr missing⟩
  refine ⟨get, names, copied.wellFormed.names_sorted, ?_, ?_⟩
  · refine Reachable.eq_of_same (.copyTo overwrite origin copied) copied fun kind name found => ?_
    rw [origin.get_copyTo copied]
    split
    · -- The source has the say again only if it had it before.
      rename_i decides
      have present : name ∈ (source.copyTo target overwrite).names kind :=
        (names kind name).2 (.inl decides.1)
      have overwrites : overwrite = true :=
        decides.2.resolve_right fun missing => missing present
      rw [get, if_pos ⟨decides.1, .inl overwrites⟩]
    · rfl
  · rintro rfl kind name declaration held
    have listed : name ∈ target.names kind := (mem_names_iff _ _ _).2 ⟨_, held⟩
    rw [get, if_neg fun decides => decides.2.elim nofun fun missing => missing listed, held]

/-! ## Snapshots -/

/-- Whichever way a vocabulary is copied or taken over as a whole, its names are the same. -/
structure Persists (v : Vocabulary) : Prop where
  clone : v.clone = v
  freeze : v.freeze = .ofVocabulary v
  snapshot : FrozenVocabulary.snapshot v = .ofVocabulary v
  cloneFrozen : (FrozenVocabulary.ofVocabulary v).clone = .ofVocabulary v
  thaw : (FrozenVocabulary.ofVocabulary v).thaw = v
  ofSource : ∀ settings, Evaluator.ofSource settings v = ⟨settings, v⟩
  ofSourceFrozen : ∀ settings, FrozenEvaluator.ofSource settings v = ⟨settings, .ofVocabulary v⟩
  evaluator : ∀ settings, (Evaluator.mk settings v).clone = ⟨settings, v⟩ ∧
    (Evaluator.mk settings v).freeze = ⟨settings, .ofVocabulary v⟩
  frozenEvaluator : ∀ settings,
    (FrozenEvaluator.mk settings (.ofVocabulary v)).clone = ⟨settings, .ofVocabulary v⟩ ∧
      (FrozenEvaluator.mk settings (.ofVocabulary v)).thaw = ⟨settings, v⟩

theorem Reachable.persists (reachable : v.Reachable) : v.Persists := by
  have same := reachable.clone_eq
  have frozen : FrozenVocabulary.snapshot v = .ofVocabulary v :=
    congrArg FrozenVocabulary.ofVocabulary same
  exact {
    clone := same
    freeze := frozen
    snapshot := frozen
    cloneFrozen := frozen
    thaw := same
    ofSource := fun settings => congrArg (Evaluator.mk settings) same
    ofSourceFrozen := fun settings => congrArg (FrozenEvaluator.mk settings) frozen
    evaluator := fun settings =>
      ⟨congrArg (Evaluator.mk settings) same, congrArg (FrozenEvaluator.mk settings) frozen⟩
    frozenEvaluator := fun settings =>
      ⟨congrArg (FrozenEvaluator.mk settings) frozen, congrArg (Evaluator.mk settings) same⟩ }

end Vocabulary

/-! ## What is kept -/

namespace Storage

/-- Whichever way a storage is copied or taken over as a whole, it keeps the same names. -/
structure Persists (s : Storage) : Prop where
  itself : s.Keeps s.vocabulary
  clone : s.clone.Keeps s.vocabulary
  freeze : s.freeze.contents.Keeps s.vocabulary
  cloneFrozen : (FrozenStorage.ofStorage s).clone.contents.Keeps s.vocabulary
  thaw : (FrozenStorage.ofStorage s).thaw.Keeps s.vocabulary
  moved : (FrozenStorage.ofStorage s).contents = s

variable {s t source target : Storage}

theorem Sound.keeps_copyTo (origin : source.Sound) (destination : target.Sound)
    (overwrite : Bool) :
    (source.copyTo target overwrite).Keeps
      (source.vocabulary.copyTo target.vocabulary overwrite) := by
  obtain ⟨consistent, same⟩ := origin.consistent.copyTo destination.consistent overwrite
  exact same ▸ consistent.keeps

theorem Built.persists (built : s.Built) : s.Persists := by
  have copied := built.sound.keeps_copyTo sound_empty true
  have same : s.vocabulary.copyTo Storage.empty.vocabulary true = s.vocabulary :=
    built.sound.reachable.clone_eq
  rw [same] at copied
  exact ⟨built.sound.consistent.keeps, copied, copied, copied, copied, rfl⟩

end Storage

namespace Vocabulary

/-- A copy joins two vocabularies, and one of a whole vocabulary, however it is taken, is the
    vocabulary itself. The stores that keep the vocabularies hold and list the same. -/
theorem joins_of_reachable :
    (∀ source target : Vocabulary, source.Reachable → target.Reachable →
      ∀ overwrite, source.Joins target overwrite) ∧
    (∀ v : Vocabulary, v.Reachable → v.Persists) ∧
    (∀ source target : Storage, source.Built → target.Built → ∀ overwrite,
      (source.copyTo target overwrite).Keeps
        (source.vocabulary.copyTo target.vocabulary overwrite)) ∧
    ∀ s : Storage, s.Built → s.Persists := by
  refine ⟨?_, fun v reachable => reachable.persists, ?_, fun s built => built.persists⟩
  · intro source target origin destination overwrite
    exact origin.joins destination overwrite
  · intro source target origin destination overwrite
    exact origin.sound.keeps_copyTo destination.sound overwrite

/-- Two constants, one of them under a name that `widths` has too. -/
def lengths : Vocabulary := (empty.declareAll (.constants [("a", 1), ("ab", 2)])).vocabulary

def widths : Vocabulary := (empty.declareAll (.constants [("ab", 3), ("c", 4)])).vocabulary

/-- The constant that both have is the source's if it may overwrite, and the target's if not. -/
theorem joins_lengths_widths :
    lengths.Reachable ∧ widths.Reachable ∧
      (lengths.copyTo widths true).get .constant "ab" = .ok (.constant 2) ∧
        (lengths.copyTo widths false).get .constant "ab" = .ok (.constant 3) ∧
          (lengths.copyTo widths false).names .constant = ["ab", "a", "c"] ∧
            (lengths.copyTo widths false).clone = lengths.copyTo widths false := by
  have origin : lengths.Reachable := .declareAll _ .empty
  have destination : widths.Reachable := .declareAll _ .empty
  obtain ⟨joins, persists, -, -⟩ := joins_of_reachable
  refine ⟨origin, destination, ?_, ?_, rfl, (persists _ (.copyTo false origin destination)).clone⟩
  · exact ((joins lengths widths origin destination true).get .constant "ab").trans rfl
  · exact (joins lengths widths origin destination false).kept rfl .constant "ab" _ rfl

end Vocabulary

end Calculator
