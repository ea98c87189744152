import Calculator.Proofs.Evaluation.Order
import Calculator.Proofs.Run.Causes

/-!
# What an evaluation writes

The journal follows an evaluation step by step. A rejected evaluation writes a warning;
an accepted one writes its start, its calls in the order in which they are made, and what
its expression came to. Behind a call stands all that is written by the evaluations that
its callable starts, so evaluations are written inside one another as they are run. The
threshold of the journal drops lines from the trace, and has no other effect.
-/
namespace Calculator

/-- A line without its number. -/
structure Note where
  severity : Severity
  category : String
  message : String

namespace Note

/-- The line of a note, with a number. -/
def line (n : Note) (number : Nat) : Line := ⟨number, n.severity, n.category, n.message⟩

/-- The lines of notes, with numbers from the first one on. -/
def lines (first : Nat) (notes : List Note) : List Line :=
  (notes.zipIdx first).map fun numbered => numbered.1.line numbered.2

theorem length_lines (first : Nat) (notes : List Note) :
    (lines first notes).length = notes.length := by simp [lines]

theorem lines_number (first : Nat) (notes : List Note) :
    (lines first notes).map (·.number) = List.range' first notes.length := by
  rw [lines, List.map_map, ← List.zipIdx_map_snd]
  rfl

/-- An evaluation is rejected. -/
def rejected (expression : String) : Note :=
  ⟨.warning, "EVAL", s!"rejected nested evaluate of '{expression}'"⟩

/-- An evaluation starts. -/
def entered (expression : String) : Note := ⟨.debugging, "EVAL", s!"ENTER evaluate '{expression}'"⟩

/-- The expression of an evaluation has come to a value or to a failure. -/
def exited : EvaluationResult → Note
  | .ok value => ⟨.debugging, "EVAL", "EXIT evaluate = " ++ Number.Style.plain.write value⟩
  | .error e => ⟨.debugging, "EVAL", "EXIT evaluate failed: " ++ e.message⟩

/-- A failure becomes a value. -/
def masked (e : EvaluationError) : Note :=
  ⟨.debugging, "EVAL", "failure masked as NaN: " ++ e.message⟩

/-- An operator is applied to two values, or a function is called with values. -/
def called : Call → Note
  | .operator name op x y =>
    let tier := match op.tier with
      | .polynomial => "POLYNOMIAL"
      | .monomial => "MONOMIAL"
      | .factor => "FACTOR"
    ⟨.tracing, "GRAM", Number.Style.plain.write x ++ s!" {name} " ++ Number.Style.plain.write y
      ++ " [" ++ tier ++ "]"⟩
  | .function name _ arguments =>
    ⟨.tracing, "GRAM",
      s!"call {name}([" ++ ", ".intercalate (arguments.map Number.Style.diagnostic.write) ++ "])"⟩

/-! ## The lines that are written -/

theorem called_eq (request : Call) : called request = ⟨.tracing, "GRAM", request.describe⟩ := by
  cases request with
  | operator name op x y =>
    obtain ⟨tier, operate⟩ := op
    cases tier <;> rfl
  | function name f arguments => rfl

theorem entered_eq (expression : String) :
    entered expression =
      ⟨.debugging, "EVAL", "ENTER " ++ "evaluate" ++ " " ++ s!"'{expression}'"⟩ := by
  have start : "ENTER " ++ "evaluate" ++ " " ++ "'" = "ENTER evaluate '" := by decide
  have text : s!"ENTER evaluate '{expression}'" =
      "ENTER " ++ "evaluate" ++ " " ++ s!"'{expression}'" := by
    change "ENTER evaluate '" ++ expression ++ "'" =
      "ENTER " ++ "evaluate" ++ " " ++ ("'" ++ expression ++ "'")
    rw [← start]
    simp only [String.append_assoc]
  rw [entered, text]

theorem exited_eq (raw : EvaluationResult) :
    exited raw =
      ⟨.debugging, "EVAL", "EXIT " ++ "evaluate" ++ " " ++ Run.outcomeText raw⟩ := by
  have value : "EXIT " ++ "evaluate" ++ " " ++ "= " = "EXIT evaluate = " := by decide
  have failure : "EXIT " ++ "evaluate" ++ " " ++ "failed: " = "EXIT evaluate failed: " := by decide
  cases raw with
  | ok x => rw [exited, Run.outcomeText, ← String.append_assoc, value]
  | error e => rw [exited, Run.outcomeText, ← String.append_assoc, failure]

end Note

/-- What is written when an outcome is settled: a failure that becomes a value. -/
def Settings.masks (settings : Settings) : EvaluationResult → List Note
  | .ok _ => []
  | .error e => if settings.allowNan ∧ settings.neverThrows then [.masked e] else []

/-! ## Notes in a journal -/

namespace Journal

variable {j : Journal}

/-- The journal behind notes: those that are severe enough have become lines, and take the
    next numbers. -/
def record (j : Journal) (notes : List Note) : Journal :=
  { j with
    count := j.count + (notes.filter (j.admits ·.severity)).length
    lines := j.lines ++ Note.lines (j.count + 1) (notes.filter (j.admits ·.severity)) }

/-- The lines have all numbers that were taken behind a first one, in order. -/
structure Numbered (j : Journal) (before : Nat) : Prop where
  count : j.count = before + j.lines.length
  numbers : j.lines.map (·.number) = List.range' (before + 1) j.lines.length

@[simp] theorem record_nil (j : Journal) : j.record [] = j := by simp [record, Note.lines]

theorem record_append (j : Journal) (notes more : List Note) :
    (j.record notes).record more = j.record (notes ++ more) := by
  have admits : (j.record notes).admits = j.admits := rfl
  rw [record, admits]
  simp only [record, List.filter_append, Note.lines, List.zipIdx_append, List.map_append,
    List.length_append, List.append_assoc, Nat.add_right_comm, Nat.add_assoc]

theorem write_eq_record (j : Journal) (severity : Severity) (category : String)
    (message : Unit → String) :
    j.write severity category message = j.record [⟨severity, category, message ()⟩] := by
  cases admits : j.admits severity with
  | true =>
    rw [write_of_admits admits]
    simp [record, admits, Note.lines, Note.line]
  | false =>
    rw [write_of_not_admits admits]
    simp [record, admits, Note.lines]

/-- Where everything is written, every note has become a line. -/
theorem record_of_tracing (everything : j.threshold = some .tracing) (notes : List Note) :
    j.record notes =
      { j with
        count := j.count + notes.length
        lines := j.lines ++ Note.lines (j.count + 1) notes } := by
  have admits : ∀ note ∈ notes, j.admits note.severity = true := by
    intro note _
    rw [Journal.admits, everything]
    cases note.severity <;> rfl
  rw [record, List.filter_eq_self.2 admits]

theorem Numbered.record {before : Nat} (numbered : j.Numbered before) (notes : List Note) :
    (j.record notes).Numbered before where
  count := by
    rw [Journal.record, List.length_append, Note.length_lines, numbered.count, Nat.add_assoc]
  numbers := by
    rw [Journal.record, List.map_append, Note.lines_number, numbered.numbers, numbered.count,
      List.length_append, Note.length_lines, Nat.add_right_comm]
    exact List.range'_append_1

end Journal

/-! ## Traces -/

mutual

/-- The trace of an evaluation on a named evaluator, and what it answers. -/
inductive Traced (evaluators : Evaluators) :
    (name expression : String) → Machine → List Note → Option EvaluationResult → Prop where
  | absent {name expression : String} {m : Machine} (missing : evaluators.find? name = none) :
      Traced evaluators name expression m [] none
  | rejected {name expression : String} {m : Machine} {evaluator : Evaluator}
      (found : evaluators.find? name = some evaluator) (busy : name ∈ m.active) :
      Traced evaluators name expression m
        (.rejected expression :: evaluator.settings.masks (.error .reentrant))
        (some (evaluator.settings.settle (.error .reentrant)))
  /-- The calls are those of the expression, each made when its operands or arguments have
      been evaluated. Their traces stand between the start and the end of the evaluation. -/
  | accepted {name expression : String} {m : Machine} {evaluator : Evaluator}
      {made : List Exchange} {reading : Reading Float (.ofString expression)} {body : List Note}
      (found : evaluators.find? name = some evaluator) (free : name ∉ m.active)
      (course : (Grammar.expression evaluator.vocabulary (.ofString expression)).Course made reading)
      (inOrder : Grammar.CallsInOrder evaluator.vocabulary expression made reading.result)
      (calls : TracedCalls evaluators (m.opening name expression) made body) :
      Traced evaluators name expression m
        (.entered expression ::
          (body ++ .exited reading.result :: evaluator.settings.masks reading.result))
        (some (evaluator.settings.settle reading.result))

/-- The trace of calls that are made in turn. A call is noted first; behind it stands the
    trace of its callable. -/
inductive TracedCalls (evaluators : Evaluators) : Machine → List Exchange → List Note → Prop where
  | nil {m : Machine} : TracedCalls evaluators m [] []
  | cons {m n : Machine} {first : Exchange} {later : List Exchange} {inside behind : List Note}
      (script : TracedScript evaluators first.request.script (m.calling first.request first.site)
        inside)
      (answered : Run.answer (Run.evaluate evaluators) first.request first.site m =
        some (first.answer, n))
      (rest : TracedCalls evaluators n later behind) :
      TracedCalls evaluators m (first :: later) (.called first.request :: (inside ++ behind))

/-- The trace of a running callable: those of the evaluations that it starts, one behind the
    other. -/
inductive TracedScript (evaluators : Evaluators) : Script → Machine → List Note → Prop where
  | finish {result : CallResult} {m : Machine} : TracedScript evaluators (.finish result) m []
  | draw {resume : Float → Script} {m : Machine} {notes : List Note}
      (later : TracedScript evaluators (resume m.draw.1) m.draw.2 notes) :
      TracedScript evaluators (.draw resume) m notes
  | load {cell : Nat} {resume : Float → Script} {m : Machine} {notes : List Note}
      (later : TracedScript evaluators (resume (m.load cell)) m notes) :
      TracedScript evaluators (.load cell resume) m notes
  | store {cell : Nat} {x : Float} {resume : Script} {m : Machine} {notes : List Note}
      (later : TracedScript evaluators resume (m.store cell x) notes) :
      TracedScript evaluators (.store cell x resume) m notes
  | evaluate {name expression : String} {resume : Option EvaluationResult → Script}
      {m n : Machine} {answer : Option EvaluationResult} {inside behind : List Note}
      (nested : Traced evaluators name expression m inside answer)
      (ran : Run.evaluate evaluators name expression m = some (answer, n))
      (later : TracedScript evaluators (resume answer) n behind) :
      TracedScript evaluators (.evaluate name expression resume) m (inside ++ behind)

end

namespace Run

variable {α β : Type} {m n k : Machine} {evaluators : Evaluators} {name expression : String}
  {evaluator : Evaluator}

/-! ## Runs that write notes -/

/-- Whatever the journal holds and whatever it drops, the run comes to the same answer and
    the same machine, and the notes are what it writes. -/
def Writes (r : Run α) (m : Machine) (answer : α) (n : Machine) (notes : List Note) : Prop :=
  ∀ journal, r { m with journal := journal } =
    some (answer, { n with journal := journal.record notes })

theorem Writes.ran {r : Run α} {answer : α} {notes : List Note}
    (writes : Writes r m answer n notes) :
    r m = some (answer, { n with journal := m.journal.record notes }) := writes m.journal

theorem writes_pure (answer : α) (m : Machine) : Writes (pure answer) m answer m [] := by
  intro journal
  rw [Journal.record_nil]
  rfl

theorem Writes.bind {r : Run α} {next : α → Run β} {x : α} {y : β} {first second : List Note}
    (before : Writes r m x n first) (after : Writes (next x) n y k second) :
    Writes (r >>= next) m y k (first ++ second) := by
  intro journal
  change (r { m with journal := journal }).bind (fun p => next p.1 p.2) = _
  rw [before journal, ← Journal.record_append]
  exact after (journal.record first)

theorem Writes.map {r : Run α} {x : α} {notes : List Note} (writes : Writes r m x n notes)
    (f : α → β) : Writes (f <$> r) m (f x) n notes :=
  fun journal => map_eq f (writes journal)

/-- What does not look at the journal writes nothing. -/
theorem writes_change {f : Machine → Machine}
    (blind : ∀ journal, f { m with journal := journal } = { f m with journal := journal }) :
    Writes (change f) m () (f m) [] := by
  intro journal
  rw [Journal.record_nil, ← blind journal]
  rfl

theorem writes_note (severity : Severity) (category : String) (message : Unit → String)
    (m : Machine) :
    Writes (note severity category message) m () (m.note severity category message)
      [⟨severity, category, message ()⟩] := by
  intro journal
  rw [← Journal.write_eq_record]
  rfl

theorem writes_called (request : Call) (m : Machine) :
    Writes (note .tracing "GRAM" fun _ => request.describe) m ()
      (m.note .tracing "GRAM" fun _ => request.describe) [.called request] := by
  rw [Note.called_eq]
  exact writes_note _ _ _ m

theorem writes_enter (expression : String) (m : Machine) :
    Writes (change (·.noteEnter expression)) m () (m.noteEnter expression)
      [.entered expression] := by
  rw [Note.entered_eq]
  exact writes_note _ _ _ m

theorem writes_exit (raw : EvaluationResult) (m : Machine) :
    Writes (change (·.noteExit fun _ => outcomeText raw)) m ()
      (m.noteExit fun _ => outcomeText raw) [.exited raw] := by
  rw [Note.exited_eq]
  exact writes_note _ _ _ m

theorem moveTo_journal (m : Machine) (c : Cursor) (journal : Journal) :
    Machine.moveTo { m with journal := journal } c = { m.moveTo c with journal := journal } := by
  unfold Machine.moveTo
  dsimp only
  split <;> rfl

theorem leave_journal (m : Machine) (journal : Journal) :
    Machine.leave { m with journal := journal } = { m.leave with journal := journal } := by
  unfold Machine.leave
  dsimp only
  split <;> rfl

theorem writes_settle (settings : Settings) (raw : EvaluationResult) (m : Machine) :
    Writes (settle settings raw) m (settings.settle raw) m (settings.masks raw) := by
  intro journal
  rw [settle_eq]
  cases raw with
  | ok x => rw [Machine.settled, Settings.masks, Journal.record_nil]
  | error e =>
    rw [Machine.settled, Settings.masks]
    by_cases silent : settings.allowNan ∧ settings.neverThrows
    · have masks : settings.isSilent = true := by simpa [Settings.isSilent] using silent
      simp only [masks, if_true, if_pos silent, Machine.note, Journal.write_eq_record, Note.masked]
    · have passes : ¬settings.isSilent = true := by simpa [Settings.isSilent] using silent
      simp only [if_neg passes, if_neg silent, Journal.record_nil]

theorem writes_reject (settings : Settings) (expression : String) (m : Machine) :
    Writes (reject settings expression) m (settings.settle (.error .reentrant)) m
      (.rejected expression :: settings.masks (.error .reentrant)) :=
  (writes_note _ _ _ m).bind (writes_settle settings _ m)

theorem writes_closed (settings : Settings) (raw : EvaluationResult) (m : Machine) :
    Writes (closed settings raw) m (settings.settle raw) m.leave
      (.exited raw :: settings.masks raw) :=
  (writes_change (leave_journal m)).bind
    ((writes_exit raw m.leave).bind (writes_settle settings raw m.leave))

/-! ## Runs that write their traces -/

/-- Evaluations that are started while those of `active` are in progress write their
    traces. -/
def WritesTraces (evaluators : Evaluators) (active : List String) : Prop :=
  ∀ name expression m, m.active = active → ∃ answer n notes,
    Writes (evaluate evaluators name expression) m answer n notes ∧
      Traced evaluators name expression m notes answer

theorem exists_writes_script (s : Script) (nested : WritesTraces evaluators m.active) :
    ∃ result n notes, Writes (script (evaluate evaluators) s) m result n notes ∧
      TracedScript evaluators s m notes := by
  induction s generalizing m with
  | finish result => exact ⟨result, m, [], writes_pure result m, .finish⟩
  | draw resume ih =>
    have drawn : Writes (modifyGet Machine.draw) m m.draw.1 m.draw.2 [] := by
      intro journal
      rw [Journal.record_nil]
      rfl
    obtain ⟨result, n, notes, writes, traced⟩ := ih m.draw.1 (m := m.draw.2) nested
    exact ⟨result, n, notes, drawn.bind writes, .draw traced⟩
  | load cell resume ih =>
    obtain ⟨result, n, notes, writes, traced⟩ := ih (m.load cell) nested
    exact ⟨result, n, notes, writes, .load traced⟩
  | store cell x resume ih =>
    have stored : Writes (change (·.store cell x)) m () (m.store cell x) [] :=
      writes_change fun _ => rfl
    obtain ⟨result, n, notes, writes, traced⟩ := ih (m := m.store cell x) nested
    exact ⟨result, n, notes, stored.bind writes, .store traced⟩
  | evaluate name expression resume ih =>
    obtain ⟨answer, n, inside, first, traced⟩ := nested name expression m rfl
    have ran := first.ran
    have keeps := keeps_of_evaluate ran
    rw [← keeps.active] at nested
    obtain ⟨result, k, behind, writes, later⟩ := ih answer nested
    exact ⟨result, k, inside ++ behind, first.bind writes, .evaluate traced ran later⟩

theorem exists_writes_answer (request : Call) (site : Site)
    (nested : WritesTraces evaluators m.active) :
    ∃ reply n inside,
      Writes (answer (evaluate evaluators) request site) m reply n (.called request :: inside) ∧
        TracedScript evaluators request.script (m.calling request site) inside := by
  have active : (m.calling request site).active = m.active := Machine.moveTo_active m site.cursor
  rw [← active] at nested
  obtain ⟨reply, n, inside, writes, traced⟩ := exists_writes_script request.script nested
  refine ⟨reply, n, inside, ?_, traced⟩
  exact (writes_change fun journal => moveTo_journal m site.cursor journal).bind
    ((writes_called request _).bind writes)

/-- Computations write the traces of the calls that they make. -/
theorem exists_writes_run (p : Interaction α) (nested : WritesTraces evaluators m.active) :
    ∃ result n made notes, Writes (p.run (answer (evaluate evaluators))) m result n notes ∧
      p.Course made result ∧ TracedCalls evaluators m made notes := by
  induction p generalizing m with
  | done result => exact ⟨result, m, [], [], writes_pure result m, .done result, .nil⟩
  | call request site resume ih =>
    obtain ⟨reply, n, inside, first, script⟩ := exists_writes_answer request site nested
    have ran := first.ran
    rw [← active_of_answer ran] at nested
    obtain ⟨result, k, made, behind, writes, course, rest⟩ := ih reply nested
    exact ⟨result, k, _, _, first.bind writes, .call course, .cons script ran rest⟩

/-- Accepted evaluations write their traces if those that they start do. -/
theorem exists_writes_accept (found : evaluators.find? name = some evaluator)
    (free : name ∉ m.active) (expression : String)
    (nested : WritesTraces evaluators (name :: m.active)) :
    ∃ answer n notes,
      Writes (accept (evaluate evaluators) name evaluator expression) m answer n notes ∧
        Traced evaluators name expression m notes (some answer) := by
  obtain ⟨reading, n, made, body, writes, course, calls⟩ := exists_writes_run
    (m := m.opening name expression)
    (Grammar.expression evaluator.vocabulary (.ofString expression)) nested
  have reads : Writes (opened (evaluate evaluators) name evaluator.vocabulary expression) m reading
      n (.entered expression :: body) :=
    (writes_change fun _ => rfl).bind ((writes_enter expression _).bind writes)
  refine ⟨_, n.leave, _, ?_, .accepted found free course (Grammar.callsInOrder_of_course course)
    calls⟩
  rw [accept_eq]
  exact reads.bind (writes_closed evaluator.settings reading.result n)

/-- Every evaluation writes its trace, whatever is in progress. -/
theorem writesTraces (evaluators : Evaluators) (active : List String) :
    WritesTraces evaluators active := by
  induction size : evaluators.idle active using Nat.strong_induction_on generalizing active with
  | h size ih =>
    rintro name expression m rfl
    cases found : evaluators.find? name with
    | none =>
      refine ⟨none, m, [], ?_, .absent found⟩
      rw [evaluate_of_none found]
      exact writes_pure none m
    | some evaluator =>
      by_cases busy : name ∈ m.active
      · have rejects := (writes_reject evaluator.settings expression m).map some
        refine ⟨_, m, _, fun journal => ?_, .rejected found busy⟩
        rw [← rejects journal, map_eq some (reject_eq evaluator.settings expression _)]
        exact evaluate_of_busy found busy
      · have fewer := Evaluators.idle_cons_lt found busy
        obtain ⟨answer, n, notes, accepts, traced⟩ := exists_writes_accept found busy expression
          (ih _ (size ▸ fewer) _ rfl)
        refine ⟨some answer, n, notes, fun journal => ?_, traced⟩
        rw [← accepts.map some journal]
        exact evaluate_of_idle found busy

/-- What the journal shows of an evaluation that comes to an answer and a machine. -/
structure Shows (evaluators : Evaluators) (name expression : String) (m : Machine)
    (answer : Option EvaluationResult) (n : Machine) (notes : List Note) : Prop where
  /-- It is the trace of the evaluation. -/
  traced : Traced evaluators name expression m notes answer
  /-- Where everything is written, each line counts on from the one before. -/
  whole : ∀ journal : Journal, journal.threshold = some .tracing →
    evaluate evaluators name expression { m with journal := journal } =
      some (answer, { n with journal := { journal with
        count := journal.count + notes.length
        lines := journal.lines ++ Note.lines (journal.count + 1) notes } })
  /-- At every threshold the same lines are written, without those that are not severe enough,
      and the evaluation comes to the same. -/
  filtered : ∀ journal : Journal,
    evaluate evaluators name expression { m with journal := journal } =
      some (answer, { n with journal := { journal with
        count := journal.count + (notes.filter (journal.admits ·.severity)).length
        lines := journal.lines ++ Note.lines (journal.count + 1)
          (notes.filter (journal.admits ·.severity)) } })
  /-- No number is left out, and none is taken without a line. -/
  numbered : ∀ (journal : Journal) (before : Nat), journal.Numbered before →
    (journal.record notes).Numbered before

/-- The journal shows every evaluation as it was run, and has no part in it. -/
theorem evaluate_shows (evaluators : Evaluators) (name expression : String) (m : Machine) :
    ∃ answer n notes, Shows evaluators name expression m answer n notes := by
  obtain ⟨answer, n, notes, writes, traced⟩ :=
    writesTraces evaluators m.active name expression m rfl
  refine ⟨answer, n, notes, traced, fun journal everything => ?_, writes,
    fun journal before numbered => numbered.record notes⟩
  rw [writes journal, Journal.record_of_tracing everything]

example : (evaluate duet "second" "back()" { Machine.start (some .tracing) with
    active := ["second"] }).map (fun p => p.2.journal.lines.map Line.text) =
      some ["1|W|EVAL|rejected nested evaluate of 'back()'",
        "2|D|EVAL|failure masked as NaN: Evaluator is already evaluating an expression; "
          ++ "it may have called evaluate() on itself"] := by
  decide +kernel

/-- The trace of an expression that is a call alone, of a callable that starts an evaluation:
    the trace of this evaluation stands inside. -/
theorem traced_of_isCall {notes : List Note} {answer : Option EvaluationResult}
    (traced : Traced evaluators name expression m notes answer)
    (found : evaluators.find? name = some evaluator) (free : name ∉ m.active)
    {function other text : String} {site : Site}
    (isCall : Grammar.IsCall evaluator.vocabulary expression (.relaying function other text) site) :
    ∃ inside reply raw,
      Traced evaluators other text
        ((m.opening name expression).calling (.relaying function other text) site) inside reply ∧
      raw = (Call.relaying function other text).outcome (Script.relayed reply) ∧
      notes = .entered expression :: .called (.relaying function other text) ::
        (inside ++ .exited raw :: evaluator.settings.masks raw) ∧
      answer = some (evaluator.settings.settle raw) := by
  cases traced with
  | absent missing => cases missing.symm.trans found
  | rejected _ busy => exact absurd busy free
  | accepted known _ course _ calls =>
    cases known.symm.trans found
    obtain ⟨resume, begins, ends⟩ := isCall
    rw [begins] at course
    cases course with
    | @call _ _ _ given _ _ rest =>
      obtain ⟨last, done, result⟩ := ends given
      rw [done] at rest
      cases rest
      cases calls with
      | cons inner answered behind =>
        cases behind
        have script : (Call.relaying function other text).script = .evaluate other text .relay := rfl
        rw [script] at inner
        cases inner with
        | evaluate nested ran later =>
          cases later
          cases answered.symm.trans (answer_of_relaying ran)
          refine ⟨_, _, _, nested, result, ?_, rfl⟩
          simp only [List.append_nil, List.cons_append]

/-- Of two evaluators that call each other, the first one rejects what the second one asks of
    it. The second one fails and makes a value of its failure, to which the first one comes. The
    rejection is written inside the evaluation of the second one, and this inside that of the
    first. -/
theorem evaluate_shows_duet :
    ∃ answer n notes, Shows duet "first" "again()" (.start none) answer n notes ∧
      (Note.lines 1 notes).map Line.text =
        ["1|D|EVAL|ENTER evaluate 'again()'",
          "2|T|GRAM|call again([])",
          "3|D|EVAL|ENTER evaluate 'back()'",
          "4|T|GRAM|call back([])",
          "5|W|EVAL|rejected nested evaluate of 'again()'",
          "6|D|EVAL|EXIT evaluate failed: Function 'back' failed",
          "7|D|EVAL|failure masked as NaN: Function 'back' failed",
          "8|D|EVAL|EXIT evaluate = NaN"] := by
  obtain ⟨answer, n, notes, shows⟩ := evaluate_shows duet "first" "again()" (.start none)
  obtain ⟨site, again⟩ := Grammar.isCall_again "second" "back()"
  obtain ⟨place, back⟩ := Grammar.isCall_back "first" "again()"
  have first : duet.find? "first" = some ⟨{}, .calling "again" "second" "back()"⟩ := rfl
  have second : duet.find? "second" =
      some ⟨{ allowNan := true, neverThrows := true }, .calling "back" "first" "again()"⟩ := rfl
  have idle : "second" ∉ ["first"] := by decide
  have busy : "first" ∈ ["second", "first"] := by decide
  obtain ⟨inside, reply, raw, traced, rfl, rfl, rfl⟩ :=
    traced_of_isCall shows.traced first List.not_mem_nil again
  obtain ⟨innermost, last, raw, rejected, rfl, rfl, rfl⟩ := traced_of_isCall traced second idle back
  cases rejected with
  | absent missing => cases missing
  | rejected found _ =>
    cases first.symm.trans found
    exact ⟨_, n, _, shows, by decide +kernel⟩
  | accepted _ free _ _ _ => exact absurd busy free

end Run

end Calculator
