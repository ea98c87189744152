import Calculator.Proofs.Evaluation.Standing
import Calculator.Proofs.Numeral.Digits

/-!
# Operands that were evaluated

A part of a text was evaluated when a tree stands there whose value has been found: its
calls were made and answered in the order of the value, each at its own occurrence. Here
such parts are put together. An operator and its right operand come behind a chain of which
everything was evaluated before, so chains grow at their end.
-/
namespace Calculator
open Unread

/-- A tree that stands between two positions was evaluated by the calls that were made: they
    are those of its value, each at the occurrence of its callable. -/
structure Tree.Evaluated (v : Vocabulary) (level : Level) (t : Tree) (a c : Cursor)
    (made : List Exchange) (x : Float) : Prop where
  allowed : t.Over v level
  leads : startsGroup a.ahead = true → t.leads = true
  stands : t.Stands a c (made.map Exchange.occurrence)
  course : t.value.Course (made.map Exchange.unplaced) (.ok x)

/-- Arguments that stand between two positions, up to behind their closing parenthesis, were
    evaluated by the calls that were made. -/
structure Arguments.Evaluated (v : Vocabulary) (arguments : Arguments) (a c : Cursor)
    (made : List Exchange) (xs : List Float) : Prop where
  allowed : arguments.Over v
  stands : arguments.Stands a c (made.map Exchange.occurrence)
  course : arguments.values.Course (made.map Exchange.unplaced) (.ok xs)

/-! ## Chains that grow -/

/-- The operators and operands with one more of each behind them. -/
def Links.snoc : Links → String → Operator → Tree → Links
  | .nil, name, op, right => .cons name op right .nil
  | .cons earlier op' operand rest, name, op, right =>
    .cons earlier op' operand (rest.snoc name op right)

section

variable {v : Vocabulary} {name : String} {op : Operator} {right : Tree}

theorem Links.Over.snoc (links : Links) {tier : Tier} (allowed : links.Over v tier)
    (listed : (name, op) ∈ v.operatorsOf tier) (rightOver : right.Over v tier.operands) :
    (links.snoc name op right).Over v tier := by
  match links with
  | .nil => exact ⟨listed, rightOver, trivial⟩
  | .cons earlier op' operand rest =>
    obtain ⟨listed', operandOver, restOver⟩ := allowed
    exact ⟨listed', operandOver, Links.Over.snoc rest restOver listed rightOver⟩

theorem Links.Stands.snoc (links : Links) {a b c d : Cursor} {found more : List Occurrence}
    (stands : links.Stands a b found) (named : b.Passes name.toList c)
    (rightStands : right.Stands c d more) :
    (links.snoc name op right).Stands a d (found ++ (more ++ [⟨b.place, name, .inl op⟩])) := by
  cases links with
  | nil =>
    obtain ⟨rfl, rfl⟩ := stands
    exact ⟨c, d, more, [], rfl, named, rightStands, rfl, rfl⟩
  | cons earlier op' operand rest =>
    obtain ⟨e, f, inside, others, rfl, named', operandStands, restStands⟩ := stands
    refine ⟨e, f, inside, _, ?_, named', operandStands,
      Links.Stands.snoc rest restStands named rightStands⟩
    rw [List.append_assoc, List.cons_append]

theorem Links.course_snoc (links : Links) {x y z w : Float} {made more : List Exchange}
    (course : (links.value x).Course made (.ok y)) (operand : right.value.Course more (.ok z)) :
    ((links.snoc name op right).value x).Course
      (made ++ (more ++ [⟨.operator name op y z, .nowhere, .ok w⟩])) (.ok w) := by
  match links with
  | .nil =>
    rw [Links.value] at course
    cases course
    rw [Links.snoc, Links.value]
    refine operand.onward (.ask ?_)
    rw [Links.value]
    exact .done _
  | .cons earlier op' first rest =>
    rw [Links.value] at course
    obtain ⟨z', inside, others, rfl, firstCourse, asked⟩ := course.of_onward
    obtain ⟨w', later, rfl, restCourse⟩ := asked.of_ask
    rw [Links.snoc, Links.value, List.append_assoc, List.cons_append]
    exact firstCourse.onward (.ask (Links.course_snoc rest restCourse operand))

end

namespace Tree.Evaluated

variable {v : Vocabulary} {a b c d e : Cursor} {made more : List Exchange} {t : Tree}
  {level : Level} {x y z : Float}

theorem placed (evaluated : t.Evaluated v level a c made x) :
    Placed a c t.tokens (made.map Exchange.occurrence) :=
  evaluated.stands.placed t

/-- An operand alone is a chain. -/
theorem chain {tier : Tier} (first : t.Evaluated v tier.operands a c made x) :
    (Tree.chain tier t .nil).Evaluated v (.chain tier) a c made x where
  allowed := ⟨rfl, first.allowed, trivial⟩
  leads group := first.leads group
  stands := ⟨c, _, [], (List.append_nil _).symm, first.stands, rfl, rfl⟩
  course := first.course.onward_done (by rw [Links.value])

/-- A chain goes on with an operator and its right operand. -/
theorem snoc {tier : Tier} {links : Links} {name : String} {op : Operator} {right : Tree}
    (left : (Tree.chain tier t links).Evaluated v (.chain tier) a b made x)
    (listed : (name, op) ∈ v.operatorsOf tier) (named : b.Passes name.toList c)
    (operand : right.Evaluated v tier.operands c d more y) :
    (Tree.chain tier t (links.snoc name op right)).Evaluated v (.chain tier) a d
      (made ++ (more ++ [⟨.operator name op x y, ⟨b.place, d⟩, .ok z⟩])) z where
  allowed := ⟨rfl, left.allowed.2.1, left.allowed.2.2.snoc links listed operand.allowed⟩
  leads group := left.leads group
  stands := by
    obtain ⟨middle, first, others, split, firstStands, linksStand⟩ := left.stands
    refine ⟨middle, first, _, ?_, firstStands, linksStand.snoc links named operand.stands⟩
    rw [List.map_append, split, List.map_append, List.append_assoc]
    rfl
  course := by
    obtain ⟨w, first, others, split, firstCourse, linksCourse⟩ := left.course.of_onward
    rw [List.map_append, split, List.map_append, List.append_assoc]
    exact firstCourse.onward (Links.course_snoc links linksCourse operand.course)

/-! ## Factors -/

theorem group (opened : a.Passes ['('] b)
    (inner : t.Evaluated v (.chain .polynomial) b c made x) (closed : c.Passes [')'] d) :
    (Tree.group t).Evaluated v .factor a d made x where
  allowed := ⟨rfl, inner.allowed⟩
  leads _ := rfl
  stands := ⟨b, c, opened, inner.stands, closed⟩
  course := inner.course

section

variable {sign : Option Char} (optional : IsOptionalSign sign)
  (leading : startsGroup a.ahead = true → sign.isSome = true) (signed : a.Passes sign.toList b)
include optional leading signed

theorem call {name : String} {f : Function} {arguments : Arguments} {xs : List Float}
    (listed : (name, f) ∈ v.functions.entries) (named : b.Passes name.toList c)
    (opened : c.Passes ['('] d) (inside : arguments.Evaluated v d e made xs)
    (pushed : ((Numeral.Draft.ofSign sign).pushValue x).read = .ok y) :
    (Tree.call sign name f arguments).Evaluated v .factor a e
      (made ++ [⟨.function name f xs, ⟨b.place, e⟩, .ok x⟩]) y where
  allowed := ⟨rfl, optional, listed, inside.allowed⟩
  leads := leading
  stands := by
    refine ⟨b, c, d, _, ?_, signed, named, opened, inside.stands⟩
    rw [List.map_append]
    rfl
  course := by
    rw [List.map_append, Tree.value]
    refine inside.course.onward (.ask ?_)
    rw [pushed]
    exact .done _

theorem constant {name : String} (listed : (name, x) ∈ v.constants.entries)
    (named : b.Passes name.toList c)
    (pushed : ((Numeral.Draft.ofSign sign).pushValue x).read = .ok y) :
    (Tree.constant sign name x).Evaluated v .factor a c [] y where
  allowed := ⟨rfl, optional, listed⟩
  leads := leading
  stands := ⟨rfl, b, signed, named⟩
  course := by
    rw [Tree.value, pushed]
    exact .done _

theorem numeral {ds : List Char} (plain : IsPlainNumeral ds) (passes : b.Passes ds c)
    (read : Numeral.read (String.ofList (sign.toList ++ ds)) = .ok y) :
    (Tree.numeral sign ds).Evaluated v .factor a c [] y where
  allowed := ⟨rfl, optional, plain⟩
  leads := leading
  stands := ⟨rfl, b, signed, passes⟩
  course := by
    rw [Tree.value, read]
    exact .done _

end

theorem signed {sign : Char} (isSign : Character.isSign sign = true) (signed : a.Passes [sign] b)
    (group : startsGroup b.ahead = true) (inner : t.Evaluated v (.chain .polynomial) b c made x)
    (applied : ((Numeral.Draft.ofSign (some sign)).applySign x).read = .ok y) :
    (Tree.signed sign t).Evaluated v .factor a c made y where
  allowed := ⟨rfl, isSign, inner.leads group, inner.allowed⟩
  leads _ := rfl
  stands := ⟨b, signed, inner.stands⟩
  course := by
    rw [Tree.value]
    exact inner.course.onward_done (congrArg _ applied)

end Tree.Evaluated

namespace Arguments.Evaluated

variable {v : Vocabulary} {a b c d : Cursor} {made more : List Exchange} {first : Tree} {x : Float}

theorem placed {arguments : Arguments} {xs : List Float}
    (evaluated : arguments.Evaluated v a c made xs) :
    Placed a c (arguments.tokens ++ [[')']]) (made.map Exchange.occurrence) :=
  evaluated.stands.placed arguments

theorem nil (closed : a.Passes [')'] c) : Arguments.nil.Evaluated v a c [] [] :=
  ⟨trivial, ⟨rfl, closed⟩, by rw [Arguments.values]; exact .done _⟩

/-- The last argument stands in front of the closing parenthesis. -/
theorem last (argument : first.Evaluated v (.chain .polynomial) a b made x)
    (closed : b.Passes [')'] c) : (Arguments.cons first .nil).Evaluated v a c made [x] where
  allowed := ⟨argument.allowed, trivial⟩
  stands := ⟨b, _, [], (List.append_nil _).symm, argument.stands, rfl, closed⟩
  course := by
    rw [Arguments.values, Arguments.values]
    exact argument.course.onward_done rfl

/-- An argument stands in front of a comma and the others. -/
theorem cons {second : Tree} {rest : Arguments} {xs : List Float}
    (argument : first.Evaluated v (.chain .polynomial) a b made x) (comma : b.Passes [','] c)
    (others : (Arguments.cons second rest).Evaluated v c d more xs) :
    (Arguments.cons first (.cons second rest)).Evaluated v a d (made ++ more) (x :: xs) where
  allowed := ⟨argument.allowed, others.allowed⟩
  stands := by
    obtain ⟨e, left, right, split, secondStands, restFollow⟩ := others.stands
    refine ⟨b, _, _, List.map_append, argument.stands, c, e, left, right, split, comma,
      secondStands, restFollow⟩
  course := by
    rw [Arguments.values, List.map_append]
    exact argument.course.onward (others.course.onward_done rfl)

end Arguments.Evaluated

end Calculator
