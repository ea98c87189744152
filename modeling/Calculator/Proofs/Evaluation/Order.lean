import Calculator.Proofs.Evaluation.Calls
import Calculator.Proofs.Evaluation.Due
import Calculator.Proofs.Vocabulary.WellFormed

/-!
# Calls in order

A text is evaluated while it is read, and nothing that was evaluated is read again. So each
call belongs to an occurrence of its callable that was passed before, no two belong to the
same one, and a call is made when the values of its operands or arguments have just been
found. The first failing call is the last one. Where a value is reached, the calls are those
of the tree that was read, in the order of its value.
-/
namespace Calculator
open Unread

/-- A course of a computation is one of every reading that follows it, up to places. -/
theorem Reader.Follows.exists_course {α : Type} {start : Cursor} {left : List Char}
    {p : Reader α start} {q : Interaction (Except EvaluationError α)} (follows : Follows left p q)
    {made : List Exchange} {result : Except EvaluationError α} (course : q.Course made result) :
    ∃ placed reading, Interaction.Course p placed reading ∧
      placed.map Exchange.unplaced = made.map Exchange.unplaced ∧ reading.result = result := by
  induction follows generalizing made with
  | value _ =>
    cases course
    exact ⟨[], _, .done _, rfl, rfl⟩
  | failure =>
    cases course
    exact ⟨[], _, .done _, rfl, rfl⟩
  | call _ ih =>
    cases course with
    | call rest =>
      obtain ⟨placed, reading, whole, same, result⟩ := ih _ rest
      exact ⟨_ :: placed, reading, .call whole, congrArg (_ :: ·) same, result⟩

namespace Grammar

/-! ## What single rules pass -/

section

variable {c d : Cursor}

theorem passes_skipIgnored (c : Cursor) : c.Passes [] c.skipIgnored :=
  ⟨Cursor.skipIgnored_text c, [], rfl, rfl⟩

theorem passes_of_closeGroup {x y : Float} (closed : (closeGroup x c).1 = .ok y) :
    y = x ∧ c.Passes [')'] (closeGroup x c).2 := by
  unfold closeGroup at closed ⊢
  dsimp only at closed ⊢
  split at closed
  · cases closed
  · rename_i more
    rw [if_neg more]
    split at closed
    · cases closed
    · rename_i found d next
      split at closed
      · rename_i close
        cases closed
        rw [if_pos close]
        cases close
        exact ⟨rfl, (Cursor.passes_of_next next).2.of_skipIgnored⟩
      · cases closed

theorem passes_of_separator {more : Bool} (separated : separator c = (.ok more, d)) :
    c.Passes [if more then ',' else ')'] d := by
  unfold separator at separated
  dsimp only at separated
  split at separated
  · cases separated
  · split at separated
    · cases separated
    · rename_i found e next
      split at separated
      · rename_i comma
        cases separated
        cases comma
        exact (Cursor.passes_of_next next).1.of_skipIgnored
      · split at separated
        · rename_i close
          cases separated
          cases close
          exact (Cursor.passes_of_next next).2.of_skipIgnored
        · cases separated

theorem passes_of_takeSign? {taken : Taken Char c} (found : takeSign? c = some taken) :
    c.Passes [taken.declaration] taken.cursor := by
  obtain ⟨listed, -, passes⟩ := passes_of_takeFirst? found
  have one : taken.name.toList = [taken.declaration] := by
    simp only [List.mem_cons, Prod.mk.injEq, List.not_mem_nil, or_false] at listed
    rcases listed with ⟨name, declaration⟩ | ⟨name, declaration⟩
    · rw [name, declaration]
      rfl
    · rw [name, declaration]
      rfl
  rwa [one] at passes

theorem passes_of_digits {sign : Option Char} (optional : IsOptionalSign sign) {x : Float}
    (value : (digits (.ofSign sign) c).result = .ok x) :
    ∃ ds, IsPlainNumeral ds ∧ c.Passes ds (digits (.ofSign sign) c).cursor ∧
      Numeral.read (String.ofList (sign.toList ++ ds)) = .ok x := by
  rcases digits_exhaustive optional c.ahead with ⟨ds, behind, plain, ends, ahead⟩ | refused
  · obtain ⟨result, unread⟩ := digits_of_plain plain ends ahead sign
    refine ⟨ds, plain, ⟨collectDigits_text _ _ _, [], rfl, ?_⟩, result.symm.trans value⟩
    rw [unread, ahead, skip_of_plain plain, List.append_nil]
  · obtain ⟨text, malformed | second⟩ := refused c rfl
    · cases malformed.symm.trans value
    · cases second.symm.trans value

end

/-! ## What rules add to a history -/

/-- A value is reached behind a history and the calls of its own part of the text. -/
def Adds {α : Type} (history : List Exchange) (own : List Exchange → α → Cursor → Prop)
    (whole : List Exchange) (x : α) (c : Cursor) : Prop :=
  ∃ made, whole = history ++ made ∧ own made x c

/-- Up to where a value is reached stands a tree of a level, and it was evaluated. -/
def ReadsTree (v : Vocabulary) (level : Level) (a : Cursor) (made : List Exchange) (x : Float)
    (c : Cursor) : Prop :=
  ∃ t : Tree, t.Evaluated v level a c made x

/-- Arguments stand there, from behind an opening parenthesis. -/
def ReadsArguments (v : Vocabulary) (a : Cursor) (made : List Exchange) (xs : List Float)
    (c : Cursor) : Prop :=
  ∃ (b : Cursor) (arguments : Arguments), a.Passes ['('] b ∧ arguments.Evaluated v b c made xs

/-- One or more arguments stand there, up to behind the closing parenthesis. -/
def ReadsList (v : Vocabulary) (a : Cursor) (made : List Exchange) (xs : List Float)
    (c : Cursor) : Prop :=
  ∃ (first : Tree) (rest : Arguments), (Arguments.cons first rest).Evaluated v a c made xs

section

variable {v : Vocabulary} {a c : Cursor} {history : List Exchange}

theorem furtherArguments_orderly {first : Tree} {left : List Exchange} {x : Float}
    (behind : Behind history a) (argument : first.Evaluated v (.chain .polynomial) a c left x)
    (others : ∀ d, separator c = (.ok true, d) → ∀ history, Behind history d →
      Reader.Orderly v (Adds history (ReadsList v d)) history (argumentList v d)) :
    Reader.Orderly v (Adds history (ReadsList v a)) (history ++ left) (furtherArguments v x c) := by
  rcases separated : separator c with ⟨result, d⟩
  cases result with
  | error e =>
    rw [furtherArguments_of_error separated]
    exact .failure
  | ok more =>
    cases more with
    | false =>
      rw [furtherArguments_of_last separated]
      exact .value ⟨left, rfl, first, .nil, .last argument (passes_of_separator separated)⟩
    | true =>
      rw [furtherArguments_of_more separated]
      have comma : c.Passes [','] d := passes_of_separator separated
      have passed := (behind.append argument.placed).within comma.within
      refine ((others d separated _ passed).andThen ?_).since
      rintro _ xs e le ⟨right, rfl, second, rest, evaluated⟩
      exact .value ⟨left ++ right, List.append_assoc _ _ _, first, .cons second rest,
        .cons argument comma evaluated⟩

end

/-- The calls of every rule are in order, and a value is that of a tree that stands there. -/
theorem rules_orderly (v : Vocabulary) :
    (∀ tier a, ∀ history, Behind history a →
        Reader.Orderly v (Adds history (ReadsTree v (.chain tier) a)) history (chain v tier a)) ∧
      (∀ tier x c, ∀ history a first links left, Behind history a →
        (Tree.chain tier first links).Evaluated v (.chain tier) a c left x →
        Reader.Orderly v (Adds history (ReadsTree v (.chain tier) a)) (history ++ left)
          (chainRest v tier x c)) ∧
      (∀ tier a, ∀ history, Behind history a →
        Reader.Orderly v (Adds history (ReadsTree v tier.operands a)) history (operand v tier a)) ∧
      (∀ a, ∀ history, Behind history a →
        Reader.Orderly v (Adds history (ReadsTree v .factor a)) history (factor v a)) ∧
      (∀ c, ∀ history a, Behind history a → a.Passes [] c →
        (∀ rest, skip a.ahead ≠ '(' :: rest) →
        Reader.Orderly v (Adds history (ReadsTree v .factor a)) history (number v c)) ∧
      (∀ sign c, ∀ history a, Behind history a → IsOptionalSign sign → a.Passes sign.toList c →
        (Unread.startsGroup a.ahead = true → sign.isSome = true) →
        Reader.Orderly v (Adds history (ReadsTree v .factor a)) history (numberAfter v sign c)) ∧
      (∀ a, ∀ history, Behind history a →
        Reader.Orderly v (Adds history (ReadsArguments v a)) history (arguments v a)) ∧
      ∀ a, ∀ history, Behind history a →
        Reader.Orderly v (Adds history (ReadsList v a)) history (argumentList v a) := by
  -- By the recursion of the rules. What stands in front of an operator or a sign is handed on
  -- with the position where it began.
  apply chain.mutual_induct v
  case case1 =>
    intro tier a first rest history behind
    rw [chain]
    refine (first history behind).andThen ?_
    rintro _ x c le ⟨left, rfl, t, evaluated⟩
    exact rest x c le history a t .nil left behind evaluated.chain
  case case2 =>
    intro tier x c none history a first links left behind evaluated
    rw [chainRest, none]
    exact .value ⟨left, rfl, _, evaluated⟩
  case case3 =>
    intro tier x c taken found right rest history a first links left behind evaluated
    obtain ⟨listed, nonempty, named⟩ := passes_of_takeFirst? found
    rw [chainRest, found]
    have before := behind.append evaluated.placed
    refine Reader.Orderly.since ((right _ (before.within named.within)).andThen ?_)
    rintro _ y d le ⟨inside, rfl, operand, operandEvaluated⟩
    refine .ask ?_ (before.apart named operandEvaluated.placed _) fun z => ?_
    · rw [List.append_assoc]
      exact .operator listed nonempty evaluated named operandEvaluated
    · have longer := rest d le z history a first _ _ behind
        (evaluated.snoc listed named operandEvaluated)
      rwa [← List.append_assoc, ← List.append_assoc] at longer
  case case4 | case5 | case6 =>
    intro a operands history behind
    rw [operand]
    exact operands history behind
  case case7 =>
    intro a e d failed history behind
    rw [factor_of_error failed]
    exact .failure
  case case8 =>
    intro a d opened polynomial history behind
    have parenthesis := (Cursor.passes_of_next opened).1
    rw [factor_of_group opened]
    refine Reader.Orderly.since ((polynomial history (behind.within parenthesis.within)).andThen ?_)
    rintro _ x e le ⟨made, rfl, t, inner⟩
    refine .settled fun y closed => ?_
    obtain ⟨rfl, close⟩ := passes_of_closeGroup closed
    exact ⟨made, rfl, _, .group parenthesis inner close⟩
  case case9 =>
    intro a first d begins other inner history behind
    rw [factor_of_number begins other]
    have back := retreat_of_next begins
    refine Reader.Orderly.since (inner history a behind ?_ fun rest ahead => ?_)
    · rw [back]
      exact passes_skipIgnored a
    · obtain ⟨passed, next⟩ := next_of_skip_cons ahead
      cases next.symm.trans begins
      exact other rfl
  case case10 =>
    intro c unsigned inner history a behind begins noGroup
    rw [number, unsigned]
    refine inner history a behind Numeral.isOptionalSign_none begins fun group => ?_
    have same : skip a.ahead = skip c.ahead := begins.writes_nil.of_nil
    have opening : opens c = true := by
      refine opens_of_unsigned unsigned ?_
      rwa [startsGroup_ahead, Unread.startsGroup, ← same, ← Unread.startsGroup]
    rw [opens, beq_iff_eq, ← same, List.head?_eq_some_iff] at opening
    obtain ⟨rest, ahead⟩ := opening
    exact absurd ahead (noGroup rest)
  case case11 =>
    intro c taken found inner history a behind begins noGroup
    have sign := (begins.trans_nil (passes_of_takeSign? found))
    rw [number, found]
    exact Reader.Orderly.since
      (inner history a behind (isSign_of_takeSign? found) sign fun _ => rfl)
  case case12 =>
    intro sign c taken found inside history a behind optional signed leading
    obtain ⟨listed, nonempty, named⟩ := passes_of_takeFirst? found
    have before := behind.within signed.within
    rw [numberAfter, found]
    refine Reader.Orderly.since ((inside history (before.within named.within)).andThen ?_)
    rintro _ xs d le ⟨made, rfl, b, arguments, opened, values⟩
    have inner := (Placed.token opened).append values.placed
    refine .ask (.function listed nonempty named opened values) (before.apart named inner _)
      fun x => .settled fun y pushed => ?_
    rw [List.append_assoc]
    exact ⟨_, rfl, _, .call optional leading signed listed named opened values pushed⟩
  case case13 =>
    intro sign c none taken found history a behind optional signed leading
    obtain ⟨listed, -, named⟩ := passes_of_takeFirst? found
    rw [numberAfter, none, found]
    refine .settled fun y pushed => ?_
    exact ⟨[], (List.append_nil _).symm, _, .constant optional leading signed listed named pushed⟩
  case case14 =>
    intro sign c noFunction noConstant group polynomial history a behind optional signed leading
    rw [numberAfter, noFunction, noConstant]
    simp only [group, and_self, dite_true]
    obtain ⟨s, rfl⟩ := Option.isSome_iff_exists.1 group.1
    have starts : Unread.startsGroup c.ahead = true := startsGroup_ahead c ▸ group.2
    refine (polynomial history (behind.within signed.within)).andThen ?_
    rintro _ x d le ⟨made, rfl, t, inner⟩
    exact .settled fun y applied =>
      ⟨made, rfl, _, .signed (optional s rfl) signed starts inner applied⟩
  case case15 =>
    intro sign c noFunction noConstant noGroup history a behind optional signed leading
    rw [numberAfter, noFunction, noConstant]
    simp only [noGroup, dite_false]
    refine Reader.Orderly.settled fun y value => ?_
    obtain ⟨ds, plain, passes, read⟩ := passes_of_digits optional value
    exact ⟨[], (List.append_nil _).symm, _, .numeral optional leading signed plain passes read⟩
  case case16 =>
    intro a missed history behind
    rw [arguments_of_missing missed]
    exact .failure
  case case17 =>
    intro a d opened e closed history behind
    rw [arguments_of_closed opened closed]
    exact .value ⟨[], (List.append_nil _).symm, d, .nil, Cursor.passes_of_accept? opened,
      .nil (Cursor.passes_of_accept? closed)⟩
  case case18 =>
    intro a d opened more list history behind
    have parenthesis := Cursor.passes_of_accept? opened
    rw [arguments_of_more opened more]
    refine Reader.Orderly.since ((list history (behind.within parenthesis.within)).mono ?_)
    rintro _ xs e ⟨made, rfl, first, rest, evaluated⟩
    exact ⟨made, rfl, d, _, parenthesis, evaluated⟩
  case case19 =>
    intro a ended history behind
    rw [argumentList_of_over ended]
    exact .failure
  case case20 =>
    intro a more polynomial others history behind
    rw [argumentList_of_more more]
    refine (polynomial history behind).andThen ?_
    rintro _ x c le ⟨left, rfl, t, argument⟩
    exact furtherArguments_orderly behind argument fun d comma => others c le d comma

/-! ## Expressions -/

/-- A text comes to a value where a tree was evaluated from its start, and only ignored
    characters are left. -/
def ReadsWhole (v : Vocabulary) (text : String) (made : List Exchange) (x : Float) (_ : Cursor) :
    Prop :=
  ∃ (t : Tree) (c : Cursor),
    t.Evaluated v (.chain .polynomial) (.ofString text) c made x ∧ skip c.ahead = []

theorem expression_orderly (v : Vocabulary) (text : String) :
    Reader.Orderly v (ReadsWhole v text) [] (expression v (.ofString text)) := by
  have fresh : (Cursor.ofString text).location = 0 := rfl
  rw [expression, if_neg (not_not_intro fresh)]
  split
  · exact .failure
  · refine ((rules_orderly v).1 .polynomial (.ofString text) [] (.nil _)).andThen ?_
    rintro _ x c le ⟨made, rfl, t, evaluated⟩
    dsimp only
    split
    · rename_i ended
      exact .value ⟨t, c, evaluated, List.isEmpty_iff.1 ended⟩
    · exact .failure

/-- A tree that was evaluated in all of a text spells it. -/
theorem spells_of_evaluated {v : Vocabulary} {text : String} {t : Tree} {c : Cursor}
    {made : List Exchange} {x : Float}
    (evaluated : t.Evaluated v (.chain .polynomial) (.ofString text) c made x)
    (ended : skip c.ahead = []) : t.Spells v text := by
  obtain ⟨written, split, spaced⟩ := evaluated.placed.writes
  obtain ⟨gap, ignored, blank⟩ := exists_gap c.ahead
  rw [ended, List.append_nil] at blank
  have spelled := spaced.append (.nil ignored)
  rw [List.append_nil, ← blank, ← split] at spelled
  exact ⟨evaluated.allowed, spelled⟩

/-- The calls that the evaluation of a text makes and the result it comes to. -/
structure CallsInOrder (v : Vocabulary) (text : String) (made : List Exchange)
    (result : EvaluationResult) : Prop where
  /-- A call is made when its operands or arguments have just been evaluated, and it receives
      their values. -/
  due : ∀ earlier call later, made = earlier ++ call :: later →
    Due v earlier call.request call.site
  /-- The name of its callable stands in the text and has been passed. -/
  named : ∀ call ∈ made, Named call.request call.site ∧ call.site.cursor.text = text.toList
  /-- No two calls are made for one occurrence of a name. -/
  once : made.Pairwise fun other call => other.occurrence.Apart call.occurrence
  /-- Nothing is called after the first failure, and this is the result. -/
  last : ∀ earlier call later cause, made = earlier ++ call :: later →
    call.answer = .error cause → later = [] ∧ result = .error (call.request.failure cause)
  /-- A value is that of a tree that the text spells. The calls are its operators and calls,
      each made once, where it stands and in the order of the value. -/
  value : ∀ x, result = .ok x → ∃ t c, Tree.Spells v t text ∧ skip c.ahead = [] ∧
    t.Stands (.ofString text) c (made.map Exchange.occurrence) ∧
      (made.map Exchange.occurrence).map Occurrence.entry = t.callables ∧
        t.value.Course (made.map Exchange.unplaced) (.ok x)
  /-- Each of them runs, if those with a wrong number of arguments fail. -/
  runs : (∀ call ∈ made, call.request.runs = false → ∃ cause, call.answer = .error cause) →
    ∀ x, result = .ok x → ∀ call ∈ made, call.request.runs = true

theorem callsInOrder_of_course {v : Vocabulary} {text : String} {made : List Exchange}
    {reading : Reading Float (.ofString text)}
    (course : (expression v (.ofString text)).Course made reading) :
    CallsInOrder v text made reading.result := by
  obtain ⟨inOrder, reached⟩ := (expression_orderly v text).course course
  refine ⟨inOrder.due, fun call listed => ?_, inOrder.once, inOrder.last, fun x value => ?_,
    fun failing x value call listed => ?_⟩
  · obtain ⟨earlier, later, split⟩ := List.append_of_mem listed
    exact ⟨(inOrder.due earlier call later split).named,
      ((expression_keeps v text).course course call listed).text⟩
  · obtain ⟨t, c, evaluated, ended⟩ := reached x value
    exact ⟨t, c, spells_of_evaluated evaluated ended, ended, evaluated.stands,
      evaluated.stands.entries t, evaluated.course⟩
  · cases runs : call.request.runs with
    | true => rfl
    | false =>
      obtain ⟨cause, failed⟩ := failing call listed runs
      obtain ⟨earlier, later, split⟩ := List.append_of_mem listed
      exact nomatch value.symm.trans (inOrder.last earlier call later cause split failed).2

/-- Where answers depend on the calls alone, a text makes the calls of one of its courses. -/
theorem exists_course_of_calls (answers : Call → CallResult) (v : Vocabulary) (text : String) :
    ∃ made reading, (expression v (.ofString text)).Course made reading ∧
      made.map Exchange.request = calls answers v text := by
  rw [calls]
  induction expression v (.ofString text) with
  | done reading => exact ⟨[], reading, .done reading, rfl⟩
  | call request site resume ih =>
    obtain ⟨made, reading, course, same⟩ := ih (answers request)
    exact ⟨_ :: made, reading, .call course, congrArg (request :: ·) same⟩

/-- An operator that is applied is declared under its name. -/
theorem mem_operators_of_calls {answers : Call → CallResult} {v : Vocabulary} {text name : String}
    {op : Operator} {x y : Float} (made : .operator name op x y ∈ calls answers v text) :
    (name, op) ∈ v.operators.entries := by
  obtain ⟨exchanges, reading, course, same⟩ := exists_course_of_calls answers v text
  rw [← same] at made
  obtain ⟨call, listed, request⟩ := List.mem_map.1 made
  obtain ⟨earlier, later, split⟩ := List.append_of_mem listed
  have due := (callsInOrder_of_course course).due earlier call later split
  rw [request] at due
  generalize call.site = site at due
  cases due with
  | operator operator _ _ _ _ => exact (Vocabulary.mem_operatorsOf_iff.1 operator).1

/-- Whatever callables answer, and whatever they keep from one call to the next, the calls of
    a text are in order. -/
structure EvaluatesInOrder (v : Vocabulary) (text : String) : Prop where
  course : ∀ {made reading}, (expression v (.ofString text)).Course made reading →
    CallsInOrder v text made reading.result
  /-- Where answers change a state, the calls are answered in turn, each in the state that the
      one before it left; so a value is that of the tree with the state handed on in its order. -/
  run : ∀ {σ : Type} (answer : Call → StateT σ Option CallResult) {s u : σ}
    {result : EvaluationResult}, evaluate answer v text s = some (result, u) →
      ∃ made, CallsInOrder v text made result ∧
        Interaction.Answered (fun request _ => answer request) s made u ∧
        ∀ x, result = .ok x → ∃ t, Tree.Spells v t text ∧
          (made.map Exchange.occurrence).map Occurrence.entry = t.callables ∧
            t.evaluate answer s = some (.ok x, u)

/-- Answers that do not depend on the place are the same at no place. -/
theorem answered_unplaced {σ : Type} {answer : Call → StateT σ Option CallResult} {s u : σ}
    {made : List Exchange}
    (answered : Interaction.Answered (fun request _ => answer request) s made u) :
    Interaction.Answered (fun request _ => answer request) s (made.map Exchange.unplaced) u := by
  induction answered with
  | nil s => exact .nil s
  | cons first _ ih => exact .cons first ih

theorem evaluates_in_order (v : Vocabulary) (text : String) : EvaluatesInOrder v text where
  course := callsInOrder_of_course
  run := by
    intro σ answer s u result evaluated
    obtain ⟨⟨reading, _⟩, ran, same⟩ := Option.bind_eq_some_iff.1 evaluated
    cases same
    obtain ⟨made, course, answered⟩ := (Interaction.run_eq_some_iff _ _).1 ran
    have inOrder := callsInOrder_of_course course
    refine ⟨made, inOrder, answered, fun x value => ?_⟩
    obtain ⟨t, c, spells, -, -, entries, valued⟩ := inOrder.value x value
    refine ⟨t, spells, entries, ?_⟩
    exact (Interaction.run_eq_some_iff _ _).2 ⟨_, valued, answered_unplaced answered⟩

/-- A counter of its own calls. -/
def tick : Function := .nullary (.load 0 fun count => .store 0 (count + 1) (.value (count + 1)))

def minus : Operator := ⟨.polynomial, fun x y => .value (x - y)⟩

def counting : Vocabulary :=
  ((Vocabulary.empty.declareAll (.functions [("tick", tick)])).vocabulary.declareAll
    (.operators [("-", minus)])).vocabulary

/-- A call of the counter as an operand of a difference. -/
def ticked : Tree := .chain .monomial (.chain .factor (.call none "tick" tick .nil) .nil) .nil

theorem ticked_reads (left : List Char) (factor : counting.operatorAt? .factor left = none)
    (monomial : counting.operatorAt? .monomial left = none) :
    ticked.Reads counting ("tick()".toList ++ left) left := by
  have found : counting.functionAt? ("tick()".toList ++ left) =
      some ("tick", tick, "()".toList ++ left) := rfl
  have signed : Signed none ("tick()".toList ++ left) ("tick()".toList ++ left) :=
    ⟨rfl, _, _, rfl, by decide, rfl⟩
  have call : (Tree.call none "tick" tick .nil).Reads counting ("tick()".toList ++ left) left :=
    ⟨_, _, _, signed, found, rfl, rfl⟩
  exact ⟨_, ⟨_, call, factor, rfl⟩, monomial, rfl⟩

/-- The counter is called once, and its answer is the value. -/
theorem ticked_course (x : Float) :
    ticked.value.Course [⟨.function "tick" tick [], .nowhere, .ok x⟩] (.ok x) := by
  have value : (Interaction.done ((Numeral.Draft.ofSign none).pushValue x).read).Course []
      (.ok x) := by
    rw [Numeral.Draft.pushValue_read]
    exact .done _
  simp only [ticked, Tree.value, Arguments.values, Links.value_nil, Reader.onward_done]
  exact Interaction.Course.onward (.done _) (.ask value)

/-- The difference of two calls of a counter makes three calls: the left one, the right one,
    and that of the operator on what the counter answered. -/
theorem evaluates_in_order_counting :
    ∃ made, CallsInOrder counting "tick()-tick()" made (.ok (-1)) ∧
      made.map Exchange.unplaced =
        [⟨.function "tick" tick [], .nowhere, .ok 1⟩, ⟨.function "tick" tick [], .nowhere, .ok 2⟩,
          ⟨.operator "-" minus 1 2, .nowhere, .ok (-1)⟩] := by
  have function : ("tick", tick) ∈ counting.functions.entries := List.mem_cons_self
  have operator : ("-", minus) ∈ counting.operatorsOf .polynomial := List.mem_cons_self
  have operand : ticked.Over counting (.chain .monomial) :=
    ⟨rfl, ⟨rfl, ⟨rfl, nofun, function, trivial⟩, trivial⟩, trivial⟩
  have stands : (Tree.chain .polynomial ticked (.cons "-" minus ticked .nil)).Over counting
      (.chain .polynomial) := ⟨rfl, operand, operator, operand, trivial⟩
  have reads : (Tree.chain .polynomial ticked (.cons "-" minus ticked .nil)).Reads counting
      "tick()-tick()".toList [] :=
    ⟨_, ticked_reads "-tick()".toList rfl rfl, _, _, rfl, ticked_reads [] rfl rfl, rfl, rfl⟩
  have last : (Links.value .nil (-1)).Course [] (.ok (-1)) := by
    rw [Links.value_nil]
    exact .done _
  have joined : ((Links.cons "-" minus ticked .nil).value 1).Course
      [⟨.function "tick" tick [], .nowhere, .ok 2⟩, ⟨.operator "-" minus 1 2, .nowhere, .ok (-1)⟩]
      (.ok (-1)) := by
    rw [Links.value]
    exact (ticked_course 2).onward (.ask last)
  have course : (Tree.chain .polynomial ticked (.cons "-" minus ticked .nil)).value.Course
      [⟨.function "tick" tick [], .nowhere, .ok 1⟩, ⟨.function "tick" tick [], .nowhere, .ok 2⟩,
        ⟨.operator "-" minus 1 2, .nowhere, .ok (-1)⟩] (.ok (-1)) := by
    rw [Tree.value]
    exact (ticked_course 1).onward joined
  obtain ⟨made, reading, whole, same, result⟩ :=
    (expression_follows stands reads rfl).exists_course course
  have inOrder := (evaluates_in_order counting "tick()-tick()").course whole
  rw [result] at inOrder
  exact ⟨made, inOrder, same⟩

end Grammar

end Calculator
