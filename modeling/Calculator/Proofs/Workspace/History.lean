import Calculator.Proofs.Run.Nesting
import Calculator.Proofs.Vocabulary.Lookup
import Calculator.Workspace.Basic

/-!
# Histories make no difference

An item comes to be by requests on vocabularies and evaluators, by copies and by snapshots.
However it did, its names are listed by what they are declared as, and nothing else: two
items with the same declarations list the same names, and an evaluator over one of them
does what an evaluator over the other does.
-/
namespace Calculator

namespace Change

/-! ## Changes -/

variable {v w : Vocabulary} {m : Machine}

/-- A change leads to a vocabulary that requests lead to, whether or not it is refused. -/
theorem reachable_apply (change : Change) (reachable : v.Reachable) (m : Machine) :
    (change.apply v m).1.vocabulary.Reachable := by
  cases change with
  | declare name blueprint =>
    rw [apply]
    dsimp only
    split
    · exact reachable
    · rename_i declared
      exact reachable.declare declared
  | declareAll kind entries => exact reachable.declareAll _
  | remove kind name =>
    rw [apply]
    split
    · exact reachable
    · rename_i removed
      exact reachable.remove removed

theorem reachable_applyAll {changes : List Change} {k : Machine} (reachable : v.Reachable)
    (applied : applyAll v m changes = (.ok w, k)) : w.Reachable := by
  induction changes generalizing v m with
  | nil =>
    cases applied
    exact reachable
  | cons change rest ih =>
    rw [applyAll] at applied
    dsimp only at applied
    split at applied
    · cases applied
    · exact ih (change.reachable_apply reachable m) applied

end Change

namespace Item

/-! ## Histories of items -/

/-- The items that take a vocabulary over as it is. -/
inductive Takes (v : Vocabulary) : Item → Prop where
  | snapshot : Takes v (.frozenVocabulary (.ofVocabulary v))
  | evaluator (settings : Settings) : Takes v (.evaluator ⟨settings, v⟩)
  | frozenEvaluator (settings : Settings) : Takes v (.frozenEvaluator ⟨settings, .ofVocabulary v⟩)

/-- The items that a program comes to hold. -/
inductive Made : Item → Prop where
  | vocabulary {v : Vocabulary} (reachable : v.Reachable) : Made (.vocabulary v)
  | evaluator (settings : Settings) : Made (.evaluator (.standard settings))
  | frozenEvaluator : Made (.frozenEvaluator .standard)
  /-- An evaluator that takes over the standard names after a series of changes. -/
  | adjusted {changes : List Change} {m k : Machine} {v : Vocabulary} (settings : Settings)
      (applied : Change.applyAll Standard.vocabulary m changes = (.ok v, k)) :
      Made (.evaluator ⟨settings, v⟩)
  | built {changes : List Change} {m k : Machine} {v : Vocabulary} (settings : Settings)
      (applied : Change.applyAll Standard.vocabulary m changes = (.ok v, k)) :
      Made (.frozenEvaluator ⟨settings, .ofVocabulary v⟩)
  | changed {item next : Item} (before : Made item) (change : Change) (m : Machine)
      (changed : item.withNames? (change.apply item.names m).1.vocabulary = some next) : Made next
  | copied {source target next : Item} (overwrite : Bool) (origin : Made source)
      (destination : Made target)
      (copied : target.withNames? (source.names.copyTo target.names overwrite) = some next) :
      Made next
  | settled {item next : Item} (settings : Settings) (before : Made item)
      (changed : item.withSettings? settings = some next) : Made next
  | clone {item : Item} (before : Made item) : Made item.clone
  | frozen {item next : Item} (before : Made item) (taken : item.freeze? = some next) : Made next
  | owned {item next : Item} (before : Made item) (taken : item.freezeOwned? = some next) :
      Made next
  | thawed {item next : Item} (before : Made item) (taken : item.thaw? = some next) : Made next
  | holding {item next : Item} (settings : Settings) (before : Made item)
      (taken : item.evaluatorOver? settings = some next) : Made next
  | sourced {item : Item} (settings : Settings) (frozen : Bool) (before : Made item) :
      Made (item.evaluatorFrom settings frozen)
  | taking {item next : Item} (before : Made item) (takes : Takes item.names next) : Made next

variable {item next : Item} {v : Vocabulary} {settings : Settings}

theorem names_of_withNames? (taken : item.withNames? v = some next) : next.names = v := by
  cases item <;> cases taken <;> rfl

theorem names_of_withSettings? (taken : item.withSettings? settings = some next) :
    next.names = item.names := by
  cases item <;> cases taken
  rfl

theorem names_clone (item : Item) : item.clone.names = item.names.clone := by
  cases item <;> rfl

theorem names_of_freeze? (taken : item.freeze? = some next) : next.names = item.names.clone := by
  cases item <;> cases taken <;> rfl

theorem names_of_freezeOwned? (taken : item.freezeOwned? = some next) :
    next.names = item.names.clone := by
  cases item <;> cases taken <;> rfl

theorem names_of_thaw? (taken : item.thaw? = some next) : next.names = item.names.clone := by
  cases item <;> cases taken <;> rfl

theorem names_of_evaluatorOver? (taken : item.evaluatorOver? settings = some next) :
    next.names = item.names.clone := by
  cases item <;> cases taken <;> rfl

theorem names_evaluatorFrom (settings : Settings) (frozen : Bool) (item : Item) :
    (item.evaluatorFrom settings frozen).names = item.names.clone := by
  cases frozen <;> rfl

theorem names_of_takes (takes : Takes v item) : item.names = v := by
  cases takes <;> rfl

/-- However an item came to be, requests lead to its names. -/
theorem Made.reachable (made : item.Made) : item.names.Reachable := by
  induction made with
  | vocabulary reachable => exact reachable
  | evaluator | frozenEvaluator => exact .standard
  | adjusted _ applied | built _ applied => exact Change.reachable_applyAll .standard applied
  | changed _ change m changed ih =>
    rw [names_of_withNames? changed]
    exact change.reachable_apply ih m
  | copied overwrite _ _ copied origin destination =>
    rw [names_of_withNames? copied]
    exact .copyTo overwrite origin destination
  | settled _ _ changed ih => rwa [names_of_withSettings? changed]
  | clone _ ih => exact names_clone _ ▸ ih.clone
  | frozen _ taken ih => exact names_of_freeze? taken ▸ ih.clone
  | owned _ taken ih => exact names_of_freezeOwned? taken ▸ ih.clone
  | thawed _ taken ih => exact names_of_thaw? taken ▸ ih.clone
  | holding _ _ taken ih => exact names_of_evaluatorOver? taken ▸ ih.clone
  | sourced settings frozen _ ih => exact names_evaluatorFrom settings frozen _ ▸ ih.clone
  | taking _ takes ih => rwa [names_of_takes takes]

/-! ## Evaluators over the names of an item -/

/-- The evaluators over the names of an item, whether these are its own or copies. -/
inductive Over (settings : Settings) (item : Item) : Evaluator → Prop where
  | itself {e : Evaluator} (is : item.evaluator? = some e) (same : e.settings = settings) :
      Over settings item e
  | taking {next : Item} {e : Evaluator} (takes : Takes item.names next)
      (is : next.evaluator? = some e) (same : e.settings = settings) : Over settings item e
  | owning {next : Item} {e : Evaluator} (taken : item.evaluatorOver? settings = some next)
      (is : next.evaluator? = some e) : Over settings item e
  | copying (frozen : Bool) {e : Evaluator}
      (is : (item.evaluatorFrom settings frozen).evaluator? = some e) : Over settings item e

/-- An evaluator over an item has exactly its names. -/
theorem Over.eq {e : Evaluator} (stands : item.Over settings e) (made : item.Made) :
    e = ⟨settings, item.names⟩ := by
  have copied := made.reachable.clone_eq
  cases stands with
  | itself is same =>
    subst same
    cases item <;> cases is <;> rfl
  | taking takes is same =>
    subst same
    cases takes <;> cases is <;> rfl
  | owning taken is =>
    cases item <;> cases taken <;> cases is
    · exact congrArg (Evaluator.mk settings) copied
    · exact congrArg (Evaluator.mk settings) copied
  | copying frozen is =>
    cases frozen <;> cases is
    · exact congrArg (Evaluator.mk settings) copied
    · exact congrArg (Evaluator.mk settings) copied

/-- Items with the same declarations list the same names, of every kind and every tier, and
    evaluators over them can stand for each other: whatever is evaluated, on one of them or
    on another evaluator, has the same answer and leaves the same machine. -/
theorem evaluate_of_same {a b : Item} (first : a.Made) (second : b.Made)
    (same : a.names.SameDeclarations b.names) :
    (∀ kind, a.names.names kind = b.names.names kind) ∧
      (∀ tier, a.names.operatorsOf tier = b.names.operatorsOf tier) ∧
        ∀ settings e f, a.Over settings e → b.Over settings f →
          ∀ (evaluators : Evaluators) (name other expression : String) (m : Machine),
            Run.evaluate (evaluators.put name e) other expression m =
              Run.evaluate (evaluators.put name f) other expression m := by
  have names : a.names = b.names := first.reachable.eq_of_same second.reachable same
  refine ⟨fun _ => by rw [names], fun _ => by rw [names], ?_⟩
  intro settings e f left right evaluators name other expression m
  rw [left.eq first, right.eq second, names]

/-- Two constants, the shorter one first. -/
def declared : Item :=
  .vocabulary (Vocabulary.empty.declareAll (.constants [("a", 1), ("ab", 2)])).vocabulary

/-- A frozen evaluator with the same constants, of which one was copied over. -/
def assembled : Item :=
  .evaluatorFrom {} true <| .vocabulary <|
    (Vocabulary.empty.declareAll (.constants [("ab", 2)])).vocabulary.copyTo
      (Vocabulary.empty.declareAll (.constants [("a", 1), ("ab", 3)])).vocabulary true

/-- Whichever constant was declared first, the longer one is tried first. -/
theorem evaluate_of_same_constants :
    declared.Made ∧ assembled.Made ∧ declared.names.SameDeclarations assembled.names ∧
      assembled.names.names .constant = ["ab", "a"] ∧
        declared.names.names .constant = assembled.names.names .constant ∧
          ∃ e f, declared.Over {} e ∧ assembled.Over {} f ∧ ∀ m,
            Run.evaluate (Evaluators.put [] "sum" e) "sum" "ab + a" m =
              Run.evaluate (Evaluators.put [] "sum" f) "sum" "ab + a" m := by
  have first : declared.Made := .vocabulary (.declareAll _ .empty)
  have second : assembled.Made := .sourced {} true
    (.vocabulary (.copyTo true (.declareAll _ .empty) (.declareAll _ .empty)))
  have names : declared.names = assembled.names := rfl
  have same : declared.names.SameDeclarations assembled.names := fun _ _ _ => by rw [names]
  obtain ⟨listed, -, evaluate⟩ := evaluate_of_same first second same
  have left : declared.Over {} ⟨{}, declared.names.clone⟩ := .owning rfl rfl
  have right : assembled.Over {} ⟨{}, assembled.names⟩ := .itself rfl rfl
  exact ⟨first, second, same, rfl, listed .constant, _, _, left, right,
    fun m => evaluate {} _ _ left right [] "sum" "sum" "ab + a" m⟩

end Item

end Calculator
