import Calculator.Standard.Vocabulary

/-!
The vocabularies that a program can come to hold: those built from the empty and
the standard one by declaring, removing and copying, whether or not a request was
refused on the way.
-/
namespace Calculator

/-- What a series of requests leads to. -/
inductive Vocabulary.Reachable : Vocabulary → Prop where
  | empty : Reachable .empty
  | standard : Reachable Standard.vocabulary
  | declare {v w : Vocabulary} {name : String} {declaration : Declaration} (before : Reachable v)
      (declared : v.declare name declaration = .ok w) : Reachable w
  /-- What was declared before a refusal stays. -/
  | declareAll {v : Vocabulary} (entries : Entries) (before : Reachable v) :
      Reachable (v.declareAll entries).vocabulary
  | remove {v w : Vocabulary} {kind : Kind} {name : String} {declaration : Declaration}
      (before : Reachable v) (removed : v.remove kind name = .ok (declaration, w)) : Reachable w
  | copyTo {source target : Vocabulary} (overwrite : Bool) (origin : Reachable source)
      (destination : Reachable target) : Reachable (source.copyTo target overwrite)

namespace Vocabulary.Reachable

theorem clone {v : Vocabulary} (h : v.Reachable) : v.clone.Reachable := .copyTo true h .empty

theorem freeze {v : Vocabulary} (h : v.Reachable) : v.freeze.contents.Reachable :=
  .copyTo true h .empty

theorem thaw {f : FrozenVocabulary} (h : f.contents.Reachable) : f.thaw.Reachable := h.clone

end Vocabulary.Reachable

end Calculator
