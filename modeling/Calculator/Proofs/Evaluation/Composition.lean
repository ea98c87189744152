import Calculator.Proofs.Evaluation.Calls
import Calculator.Proofs.Evaluation.SignedGroup

/-!
# Groups and calls

Expressions with values inside parentheses and between the commas of a call. A group
comes to the value of what it holds. A call hands the values of its arguments on to the
function, whatever other names are declared: the callable is looked for by its name and
an opening parenthesis alone, and what it answers goes through its written form and back.
-/
namespace Calculator
open Unread

/-- Exact text of a group. -/
def groupText (inner : String) : String := "(" ++ inner ++ ")"

/-- Exact text of a call. -/
def callText (name : String) (arguments : List String) : String :=
  name ++ groupText (",".intercalate arguments)

/-- What stands behind an argument: the other ones, each behind a comma, and the closing
    parenthesis. -/
def furtherText : List String → List Char
  | [] => [')']
  | text :: rest => ',' :: (text.toList ++ furtherText rest)

theorem groupText_toList (inner : String) :
    (groupText inner).toList = '(' :: (inner.toList ++ [')']) := by
  simp [groupText]

theorem callText_toList_nil (name : String) :
    (callText name []).toList = name.toList ++ '(' :: furtherText [] := by
  simp [callText, groupText, furtherText]

theorem callText_toList_cons (name first : String) (rest : List String) :
    (callText name (first :: rest)).toList =
      name.toList ++ '(' :: (first.toList ++ furtherText rest) := by
  have joined : ∀ first, (",".intercalate (first :: rest)).toList ++ [')'] =
      first.toList ++ furtherText rest := by
    induction rest with
    | nil =>
      intro first
      simp [furtherText]
    | cons second others ih =>
      intro first
      have later := ih second
      simp only [String.toList_intercalate, List.intercalate, List.map_cons] at later ⊢
      rw [List.intersperse_cons_cons]
      simp [furtherText, ← later]
  rw [callText, String.toList_append, groupText_toList, joined]

theorem exists_closes (rest : List String) :
    ∃ stop tail, furtherText rest = stop :: tail ∧ Closes stop := by
  cases rest with
  | nil => exact ⟨')', [], rfl, .inl rfl⟩
  | cons text others => exact ⟨',', _, rfl, .inr rfl⟩

variable {v : Vocabulary}

/-! ## Closing parentheses -/

/-- Nothing is read from a closing parenthesis. -/
theorem Tree.Reads.not_close (wellFormed : v.WellFormed) {t : Tree} {level : Level}
    {text left : List Char} (stands : t.Over v level) (reads : t.Reads v text left)
    (behind : List Char) : skip text ≠ ')' :: behind := by
  intro close
  -- Behind an optional sign, a declared name or a digit would have to come next.
  have unsigned : ∀ {sign named}, Signed sign text named → named = ')' :: behind := by
    intro sign named signed
    cases sign with
    | none => exact signed.1.trans close
    | some sign =>
      obtain ⟨isSign, rest, ahead, -⟩ := signed
      rw [close] at ahead
      cases ahead
      exact absurd isSign (by decide)
  have unnamed : ∀ {α : Type} {table : Table α} {fits : List Char → Bool} {name : String}
      {declaration : α} {rest : List Char}, table.WellFormed →
      first? fits (')' :: behind) table.entries ≠ some (name, declaration, rest) := by
    intro α table fits name declaration rest tableWellFormed found
    obtain ⟨listed, nonempty, accepted, -⟩ := of_first?_eq_some found
    obtain ⟨after, ahead, -⟩ := accept?_eq_some_iff.1 accepted
    rw [skip_cons (by decide)] at ahead
    obtain ⟨c, others, begins⟩ := List.exists_cons_of_ne_nil nonempty
    rw [begins] at ahead
    cases ahead
    have inside : ')' ∈ name.toList := by rw [begins]; exact List.mem_cons_self
    exact tableWellFormed.free (by decide) _ listed inside
  cases t with
  | chain tier first rest =>
    obtain ⟨rfl, firstOver, -⟩ := stands
    obtain ⟨between, firstReads, -⟩ := reads
    exact Tree.Reads.not_close wellFormed firstOver firstReads behind close
  | group inner =>
    obtain ⟨opened, closed, ahead, -⟩ := reads
    rw [close] at ahead
    cases ahead
  | call sign name f arguments =>
    obtain ⟨named, after, opened, signed, found, -⟩ := reads
    rw [unsigned signed] at found
    exact unnamed wellFormed.functions found
  | constant sign name value =>
    obtain ⟨named, signed, -, found⟩ := reads
    rw [unsigned signed] at found
    exact unnamed wellFormed.constants found
  | numeral sign ds =>
    obtain ⟨named, signed, -, -, split, -⟩ := reads
    obtain ⟨-, -, plain⟩ := stands
    obtain ⟨c, others, rfl, digit⟩ := Grammar.exists_digit_of_plain plain
    rw [unsigned signed] at split
    cases split
    exact absurd digit (by decide)
  | signed sign inner =>
    obtain ⟨named, ⟨isSign, rest, ahead, -⟩, -⟩ := reads
    rw [close] at ahead
    cases ahead
    exact absurd isSign (by decide)

/-! ## Arguments in place -/

theorem Arguments.Continue.congr {others : Arguments} {text other left : List Char}
    (reads : others.Continue v text left) (same : skip other = skip text) :
    others.Continue v other left := by
  cases others with
  | nil => exact same.trans reads
  | cons first rest =>
    obtain ⟨behind, between, comma, parts⟩ := reads
    exact ⟨behind, between, same.trans comma, parts⟩

section

variable (answers : Call → CallResult)

theorem Arguments.values_nil :
    (Arguments.nil.values.run (m := Id) fun request _ => answers request) = .ok [] ∧
      Arguments.nil.values.calls answers = [] := by
  rw [Arguments.values]
  exact ⟨rfl, rfl⟩

/-- The first argument is evaluated and called for before the others. -/
theorem Arguments.values_cons {first : Tree} {rest : Arguments} {x : Float} {xs : List Float}
    (firstValue : first.evaluate (m := Id) answers = .ok x)
    (restValues : (rest.values.run (m := Id) fun request _ => answers request) = .ok xs) :
    ((Arguments.cons first rest).values.run (m := Id) fun request _ => answers request) =
        .ok (x :: xs) ∧
      (Arguments.cons first rest).values.calls answers =
        first.calls answers ++ rest.values.calls answers := by
  rw [Tree.evaluate] at firstValue
  rw [Arguments.values]
  constructor
  · rw [Interaction.run_onward, firstValue]
    dsimp only
    rw [Interaction.run_onward, restValues]
    rfl
  · rw [Interaction.calls_onward, firstValue]
    dsimp only
    rw [Interaction.calls_onward, restValues]
    simp [Tree.calls, Interaction.calls]

/-- Values and calls of the trees of arguments are those of their texts alone. -/
structure Arguments.Fit (answers : Call → CallResult) (v : Vocabulary)
    (arguments : List (String × Float)) (trees : Arguments) : Prop where
  stand : trees.Over v
  values : (trees.values.run (m := Id) fun request _ => answers request) =
    .ok (arguments.map Prod.snd)
  calls : trees.values.calls answers = arguments.flatMap fun a => Grammar.calls answers v a.1

/-- An expression with a value is a tree that is read in front of what closes it. -/
theorem exists_argument (wellFormed : v.WellFormed) {text : String} {x : Float}
    (value : Grammar.evaluate (m := Id) answers v text = .ok x) (rest : List String) :
    ∃ (t : Tree) (left : List Char), t.Over v (.chain .polynomial) ∧
      t.Reads v (text.toList ++ furtherText rest) (left ++ furtherText rest) ∧
      skip (left ++ furtherText rest) = skip (furtherText rest) ∧
      (∀ behind, skip (text.toList ++ furtherText rest) ≠ ')' :: behind) ∧
      t.evaluate (m := Id) answers = .ok x ∧ t.calls answers = Grammar.calls answers v text := by
  obtain ⟨t, left, stands, reads, ended, same⟩ := Grammar.exists_reads_of_value value
  obtain ⟨stop, tail, begins, closes⟩ := exists_closes rest
  have inPlace := Tree.Reads.inPlace wellFormed closes tail t reads
  rw [begins]
  refine ⟨t, left, stands, inPlace, ?_, inPlace.not_close wellFormed stands, same,
    (Grammar.calls_of_reads answers stands reads ended).symm⟩
  rw [skip_append_cons left closes.kept, ended, List.nil_append, skip_cons closes.kept]

theorem exists_further (wellFormed : v.WellFormed) (arguments : List (String × Float))
    (valued : ∀ a ∈ arguments, Grammar.evaluate (m := Id) answers v a.1 = .ok a.2) :
    ∃ trees : Arguments, trees.Fit answers v arguments ∧
      trees.Continue v (furtherText (arguments.map Prod.fst)) [] := by
  induction arguments with
  | nil =>
    obtain ⟨values, calls⟩ := Arguments.values_nil answers
    exact ⟨.nil, ⟨trivial, values, calls⟩, skip_cons (by decide) []⟩
  | cons a rest ih =>
    obtain ⟨others, fit, continued⟩ := ih fun b behind => valued b (List.mem_cons_of_mem _ behind)
    obtain ⟨t, left, stands, reads, same, -, value, calls⟩ :=
      exists_argument answers wellFormed (valued a List.mem_cons_self) (rest.map Prod.fst)
    obtain ⟨values, made⟩ := Arguments.values_cons answers value fit.values
    refine ⟨.cons t others, ⟨⟨stands, fit.stand⟩, values, ?_⟩, ?_⟩
    · rw [made, calls, fit.calls, List.flatMap_cons]
    · exact ⟨_, _, skip_cons (by decide) _, reads, continued.congr same⟩

/-- Expressions with values are read as the arguments of a call. -/
theorem exists_arguments (wellFormed : v.WellFormed) (name : String)
    (arguments : List (String × Float))
    (valued : ∀ a ∈ arguments, Grammar.evaluate (m := Id) answers v a.1 = .ok a.2) :
    ∃ (trees : Arguments) (opened : List Char), trees.Fit answers v arguments ∧
      trees.Reads v opened [] ∧
      (callText name (arguments.map Prod.fst)).toList = name.toList ++ '(' :: opened := by
  cases arguments with
  | nil =>
    obtain ⟨values, calls⟩ := Arguments.values_nil answers
    exact ⟨.nil, _, ⟨trivial, values, calls⟩, skip_cons (by decide) [], callText_toList_nil name⟩
  | cons a rest =>
    obtain ⟨others, fit, continued⟩ :=
      exists_further answers wellFormed rest fun b behind => valued b (List.mem_cons_of_mem _ behind)
    obtain ⟨t, left, stands, reads, same, more, value, calls⟩ :=
      exists_argument answers wellFormed (valued a List.mem_cons_self) (rest.map Prod.fst)
    obtain ⟨values, made⟩ := Arguments.values_cons answers value fit.values
    refine ⟨.cons t others, _, ⟨⟨stands, fit.stand⟩, values, ?_⟩, ?_, callText_toList_cons name _ _⟩
    · rw [made, calls, fit.calls, List.flatMap_cons]
    · exact ⟨more, _, reads, continued.congr same⟩

end

/-! ## Calls -/

/-- A function is taken by its name in front of a parenthesis, whatever else is declared. -/
theorem functionAt?_of_listed (wellFormed : v.WellFormed) {name : String} {f : Function}
    (listed : (name, f) ∈ v.functions.entries)
    (visible : ∀ c ∈ name.toList.head?, Character.isIgnored c = false) (behind : List Char) :
    v.functionAt? (name.toList ++ '(' :: behind) = some (name, f, '(' :: behind) := by
  obtain ⟨nonempty, ahead⟩ :=
    Join.skip_of_visible (wellFormed.functions.2 _ listed) visible ('(' :: behind)
  have opens : opensParenthesis ('(' :: behind) = true :=
    opensParenthesis_iff.2 ⟨behind, skip_cons (by decide) behind⟩
  refine first?_eq_some_of_longest wellFormed.functions.1 listed nonempty
    (accept?_eq_some_iff.2 ⟨'(' :: behind, ahead, (skip_cons (by decide) behind).symm⟩) opens ?_
  intro other others left accepted _
  have inside := Join.prefix_of_accept_group wellFormed.functions others ahead accepted
  rw [← String.length_toList, ← String.length_toList]
  exact inside.length_le

/-- A failure of a call: its kind, text and cause. -/
def IsFailureOfCall (name : String) (cause : CallError) (result : EvaluationResult) : Prop :=
  ∃ e, result = .error e ∧ e.kind = .call ∧ e.message = s!"Function '{name}' failed" ∧
    e.source? = some (.call cause)

/-- What a function may be called by: a name that begins with no ignored character and
    with no sign. -/
def Callable (name : String) : Prop :=
  ∀ c ∈ name.toList.head?, Character.isIgnored c = false ∧ Character.isSign c = false

/-- A call of a function under expressions with values is made last, on exactly these
    values, and comes to its answer. -/
theorem evaluate_call (wellFormed : v.WellFormed) (answers : Call → CallResult) {name : String}
    {f : Function} (listed : (name, f) ∈ v.functions.entries) (callable : Callable name)
    (arguments : List (String × Float))
    (valued : ∀ a ∈ arguments, Grammar.evaluate (m := Id) answers v a.1 = .ok a.2) :
    (Grammar.evaluate (m := Id) answers v (callText name (arguments.map Prod.fst)) =
      match answers (.function name f (arguments.map Prod.snd)) with
      | .error cause => .error (.callFailed name cause)
      | .ok x => .ok x) ∧
    Grammar.calls answers v (callText name (arguments.map Prod.fst)) =
      (arguments.flatMap fun a => Grammar.calls answers v a.1) ++
        [.function name f (arguments.map Prod.snd)] := by
  obtain ⟨trees, opened, fit, argumentsRead, text⟩ :=
    exists_arguments answers wellFormed name arguments valued
  obtain ⟨nonempty, ahead⟩ := Join.skip_of_visible (wellFormed.functions.2 _ listed)
    (fun c begins => (callable c begins).1) ('(' :: opened)
  have found := functionAt?_of_listed wellFormed listed (fun c begins => (callable c begins).1) opened
  have signed : Signed none (callText name (arguments.map Prod.fst)).toList
      (name.toList ++ '(' :: opened) := by
    obtain ⟨c, rest, begins⟩ := List.exists_cons_of_ne_nil nonempty
    rw [text]
    refine ⟨ahead.symm, c, rest ++ '(' :: opened, ?_, ?_, (callable c (by rw [begins]; rfl)).2⟩
    · rw [ahead, begins, List.cons_append]
    · rintro rfl
      have inside : '(' ∈ name.toList := by rw [begins]; exact List.mem_cons_self
      exact wellFormed.functions.free (by decide) _ listed inside
  have reads : (Tree.call none name f trees).Reads v
      (callText name (arguments.map Prod.fst)).toList [] :=
    ⟨_, _, opened, signed, found, skip_cons (by decide) opened, argumentsRead⟩
  have stands : (Tree.call none name f trees).Over v .factor := ⟨rfl, nofun, listed, fit.stand⟩
  -- The text is read as this tree, so value and calls are those of the tree.
  constructor
  · rw [Grammar.evaluate_of_reads (m := Id) answers stands.lone (reads.lone rfl) rfl, Tree.evaluate,
      Tree.value_lone, Tree.value, Interaction.run_onward, fit.values]
    dsimp only
    rw [Interaction.run_ask]
    cases answers (.function name f (arguments.map Prod.snd)) with
    | error cause => rfl
    | ok x => exact Numeral.Draft.pushValue_read x
  · rw [Grammar.calls_of_reads answers stands.lone (reads.lone rfl) rfl, Tree.calls,
      Tree.value_lone, Tree.value, Interaction.calls_onward, fit.values, fit.calls]
    dsimp only
    rw [Interaction.calls_ask]
    cases answers (.function name f (arguments.map Prod.snd)) <;> rfl

/-- What an evaluation makes of the answer of a call. -/
def Call.outcome (request : Call) (reply : CallResult) : EvaluationResult :=
  reply.mapError fun cause => request.failure cause

/-- A text is a call alone, and comes to what its callable answers. -/
def Grammar.IsCall (v : Vocabulary) (text : String) (request : Call) (site : Site) : Prop :=
  ∃ resume, expression v (.ofString text) = .call request site resume ∧
    ∀ reply, ∃ reading, resume reply = .done reading ∧ reading.result = request.outcome reply

/-- A call without arguments is a call alone. -/
theorem Grammar.exists_isCall (wellFormed : v.WellFormed) {name : String} {body : Script}
    (listed : (name, .nullary body) ∈ v.functions.entries) (callable : Callable name) :
    ∃ site, IsCall v (callText name []) (.function name (.nullary body) []) site := by
  have single : ∀ reply, evaluate (m := Id) (fun _ => reply) v (callText name []) = _ ∧
      calls (fun _ => reply) v (callText name []) = [.function name (.nullary body) []] :=
    fun reply => evaluate_call wellFormed (fun _ => reply) listed callable [] nofun
  cases begins : expression v (.ofString (callText name [])) with
  | done reading =>
    have first := (single (.ok 0)).2
    rw [calls, begins] at first
    cases first
  | call request site resume =>
    have first := (single (.ok 0)).2
    rw [calls, begins] at first
    obtain ⟨rfl, -⟩ := List.cons_eq_cons.1 first
    refine ⟨site, resume, begins, fun reply => ?_⟩
    obtain ⟨value, others⟩ := single reply
    rw [calls, begins] at others
    rw [evaluate, read, begins] at value
    -- Whatever is answered, no other call is made.
    cases rest : resume reply with
    | call next place resumed =>
      rw [Interaction.calls, rest] at others
      cases others
    | done reading =>
      refine ⟨reading, rfl, ?_⟩
      change ((resume reply).run (m := Id) _).result = _ at value
      rw [rest] at value
      refine value.trans ?_
      cases reply <;> rfl

/-- A group comes to the value of the expression in it and makes its calls. -/
theorem evaluate_groupText (wellFormed : v.WellFormed) (answers : Call → CallResult) {text : String}
    {x : Float} (value : Grammar.evaluate (m := Id) answers v text = .ok x) :
    Grammar.evaluate (m := Id) answers v (groupText text) = .ok x ∧
      Grammar.calls answers v (groupText text) = Grammar.calls answers v text := by
  obtain ⟨t, left, stands, reads, ended, same⟩ := Grammar.exists_reads_of_value value
  have group := reads.group wellFormed ended []
  rw [← groupText_toList] at group
  have stands' : (Tree.group t).Over v .factor := ⟨rfl, stands⟩
  constructor
  · rw [Grammar.evaluate_of_reads (m := Id) answers stands'.lone (group.lone rfl) rfl, Tree.evaluate,
      Tree.value_lone, Tree.value]
    exact same
  · rw [Grammar.calls_of_reads answers stands'.lone (group.lone rfl) rfl, Tree.calls,
      Tree.value_lone, Tree.value, Grammar.calls_of_reads answers stands reads ended, Tree.calls]

/-! ## Callables as functions of their arguments -/

/-- The outcome of every script. What a finished script comes to is its own result. -/
structure Outcomes where
  of : Script → CallResult
  finish : ∀ result, of (.finish result) = result

/-- The answers of callables whose scripts have the given outcomes. -/
def Outcomes.answers (outcomes : Outcomes) (request : Call) : CallResult :=
  outcomes.of request.script

/-- What a call of a declared function under arguments with values comes to. -/
structure Composes (outcomes : Outcomes) (v : Vocabulary) (name : String) (f : Function)
    (arguments : List (String × Float)) : Prop where
  value : ∀ x, outcomes.of (f.call (arguments.map Prod.snd)) = .ok x →
    Grammar.evaluate (m := Id) outcomes.answers v (callText name (arguments.map Prod.fst)) = .ok x
  failure : ∀ cause, outcomes.of (f.call (arguments.map Prod.snd)) = .error cause →
    IsFailureOfCall name cause
      (Grammar.evaluate (m := Id) outcomes.answers v (callText name (arguments.map Prod.fst)))
  /-- Under the right number of arguments, the body of the function runs on their values
      and nothing else runs behind them. -/
  invoked : (∀ expected, f.arity.expected = some expected → arguments.length = expected) →
    Grammar.invocations outcomes.answers v (callText name (arguments.map Prod.fst)) =
      (arguments.flatMap fun a => Grammar.invocations outcomes.answers v a.1) ++
        [.function name f (arguments.map Prod.snd)]
  /-- Under a wrong number of arguments, nothing runs behind them. -/
  mismatch : ∀ expected, f.arity.expected = some expected → arguments.length ≠ expected →
    outcomes.of (f.call (arguments.map Prod.snd)) =
        .error (.arityMismatch expected arguments.length) ∧
      Grammar.invocations outcomes.answers v (callText name (arguments.map Prod.fst)) =
        arguments.flatMap fun a => Grammar.invocations outcomes.answers v a.1

/-- Expressions with values compose: a group has the value of what it holds, and a call
    of a declared function under arguments comes to what the function answers for their
    values. -/
theorem evaluate_composed {v : Vocabulary} (reachable : v.Reachable) (outcomes : Outcomes) :
    (∀ text x, Grammar.evaluate (m := Id) outcomes.answers v text = .ok x →
      Grammar.evaluate (m := Id) outcomes.answers v (groupText text) = .ok x ∧
        Grammar.calls outcomes.answers v (groupText text) = Grammar.calls outcomes.answers v text) ∧
    ∀ (name : String) (f : Function) (arguments : List (String × Float)),
      (name, f) ∈ v.functions.entries → Callable name →
      (∀ a ∈ arguments, Grammar.evaluate (m := Id) outcomes.answers v a.1 = .ok a.2) →
      Composes outcomes v name f arguments := by
  have wellFormed := reachable.wellFormed
  refine ⟨fun text x value => evaluate_groupText wellFormed outcomes.answers value, ?_⟩
  intro name f arguments listed callable valued
  obtain ⟨result, calls⟩ := evaluate_call wellFormed outcomes.answers listed callable arguments valued
  have answer : outcomes.answers (.function name f (arguments.map Prod.snd)) =
      outcomes.of (f.call (arguments.map Prod.snd)) := rfl
  rw [answer] at result
  have invocations : Grammar.invocations outcomes.answers v (callText name (arguments.map Prod.fst)) =
      (arguments.flatMap fun a => Grammar.invocations outcomes.answers v a.1) ++
        [Call.function name f (arguments.map Prod.snd)].filter Call.runs := by
    rw [Grammar.invocations, calls, List.filter_append, List.filter_flatMap]
    rfl
  constructor
  · intro x answered
    rw [result, answered]
  · intro cause answered
    rw [answered] at result
    exact ⟨.callFailed name cause, result, rfl, rfl, rfl⟩
  · intro right
    have runs : Call.runs (.function name f (arguments.map Prod.snd)) = true := by
      rw [Call.runs, Option.isSome_iff_ne_none, ne_eq, Function.body?_eq_none_iff]
      rintro ⟨expected, fixed, wrong⟩
      rw [List.length_map] at wrong
      exact wrong (right expected fixed)
    rw [invocations, List.filter_cons_of_pos runs, List.filter_nil]
  · intro expected fixed wrong
    have none : f.body? (arguments.map Prod.snd) = none := by
      rw [Function.body?_eq_none_iff]
      exact ⟨expected, fixed, by rwa [List.length_map]⟩
    constructor
    · rw [Function.call_eq, none, fixed, Option.getD_none, Script.fail, outcomes.finish,
        Option.getD_some, List.length_map]
    · have idle : ¬ Call.runs (.function name f (arguments.map Prod.snd)) = true := by
        rw [Call.runs, none]
        exact Bool.false_ne_true
      rw [invocations, List.filter_cons_of_neg idle, List.filter_nil, List.append_nil]

/-- A difference, a function by a part of its name and a constant of its name. -/
def differences : Vocabulary :=
  ((Vocabulary.empty.declareAll (.functions
    [("sub", .binary fun x y => .value (x - y)),
     ("su", .unary fun x => .value x)])).vocabulary.declareAll (.constants [("sub", 5)])).vocabulary

/-- Callables that ask for nothing answer what they finish with; others answer zero. -/
def Outcomes.finished : Outcomes where
  of
    | .finish result => result
    | _ => .ok 0
  finish _ := rfl

/-- The difference is called by its own name, and its body runs under two arguments only. -/
theorem evaluate_difference :
    differences.Reachable ∧
      Grammar.evaluate (m := Id) Outcomes.finished.answers differences "sub(3,(1))" = .ok 2 ∧
      IsFailureOfCall "sub" (.arityMismatch 2 1)
        (Grammar.evaluate (m := Id) Outcomes.finished.answers differences "sub(3)") := by
  have reachable : differences.Reachable := .declareAll _ (.declareAll _ .empty)
  have numeral : ∀ c, Character.isDigit c = true → differences.functionAt? [c] = none →
      differences.constantAt? [c] = none →
      Grammar.evaluate (m := Id) Outcomes.finished.answers differences (String.ofList [c]) =
        Numeral.read (String.ofList [c]) := by
    intro c digit noFunction noConstant
    exact Grammar.evaluate_of_plain (m := Id) _ (Grammar.plain_of_isDigit digit) noFunction noConstant
  have one : Grammar.evaluate (m := Id) Outcomes.finished.answers differences "1" = .ok 1 :=
    numeral '1' (by decide) rfl rfl
  have three : Grammar.evaluate (m := Id) Outcomes.finished.answers differences "3" = .ok 3 :=
    numeral '3' (by decide) rfl rfl
  obtain ⟨groups, functions⟩ := evaluate_composed reachable Outcomes.finished
  have listed : ("sub", .binary fun x y => .value (x - y)) ∈ differences.functions.entries :=
    List.mem_cons_self
  have callable : Callable "sub" := by
    rintro c ⟨⟩
    decide
  refine ⟨reachable, ?_, ?_⟩
  · have valued : ∀ a ∈ [("3", (3 : Float)), ("(1)", 1)],
        Grammar.evaluate (m := Id) Outcomes.finished.answers differences a.1 = .ok a.2 := by
      intro a inside
      rcases List.mem_pair.1 inside with rfl | rfl
      · exact three
      · exact (groups "1" 1 one).1
    have two : (3 - 1 : Float) = 2 := by decide +kernel
    have value := (functions "sub" _ _ listed callable valued).value (3 - 1) rfl
    rw [two] at value
    exact value
  · have valued : ∀ a ∈ [("3", (3 : Float))],
        Grammar.evaluate (m := Id) Outcomes.finished.answers differences a.1 = .ok a.2 := by
      intro a inside
      rw [List.mem_singleton.1 inside]
      exact three
    have composes := functions "sub" _ _ listed callable valued
    exact composes.failure _ (composes.mismatch 2 rfl (by decide)).1

end Calculator
