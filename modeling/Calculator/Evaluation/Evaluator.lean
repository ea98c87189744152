import Calculator.Evaluation.Settings
import Calculator.Standard.Vocabulary

/-!
An evaluator: settings and the names it knows. The names of a frozen evaluator
are a snapshot that can only be read.
-/
namespace Calculator

/-- An evaluator whose names can be changed between evaluations. -/
structure Evaluator where
  settings : Settings
  vocabulary : Vocabulary

/-- An evaluator whose names are fixed. -/
structure FrozenEvaluator where
  settings : Settings
  vocabulary : FrozenVocabulary

namespace Evaluator

/-- The evaluator with the standard names. -/
def standard (settings : Settings) : Evaluator := ⟨settings, Standard.vocabulary⟩

/-- The evaluator whose names are copied from a vocabulary. -/
def ofSource (settings : Settings) (source : Vocabulary) : Evaluator := ⟨settings, source.clone⟩

def clone (e : Evaluator) : Evaluator := ⟨e.settings, e.vocabulary.clone⟩

/-- The frozen evaluator with the names as they are now. -/
def freeze (e : Evaluator) : FrozenEvaluator := ⟨e.settings, e.vocabulary.freeze⟩

end Evaluator

namespace FrozenEvaluator

/-- The frozen evaluator with the standard names. -/
def standard : FrozenEvaluator := ⟨{}, .ofVocabulary Standard.vocabulary⟩

/-- The frozen evaluator with a snapshot of a vocabulary. -/
def ofSource (settings : Settings) (source : Vocabulary) : FrozenEvaluator :=
  ⟨settings, .snapshot source⟩

def clone (e : FrozenEvaluator) : FrozenEvaluator := ⟨e.settings, e.vocabulary.clone⟩

/-- The evaluator with a copy of the names that can be changed. -/
def thaw (e : FrozenEvaluator) : Evaluator := ⟨e.settings, e.vocabulary.thaw⟩

/-- The evaluator as it evaluates. -/
def reading (e : FrozenEvaluator) : Evaluator := ⟨e.settings, e.vocabulary.contents⟩

end FrozenEvaluator

end Calculator
