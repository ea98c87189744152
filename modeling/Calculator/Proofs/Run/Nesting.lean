import Calculator.Proofs.Run.Agreement

/-!
# Nesting

Whatever nesting is allowed for beyond the number of evaluators that are idle, evaluations
return, and they agree over evaluators that differ at most where an evaluation is in
progress already. Run beside itself, an evaluation finds every evaluation in progress as it
was. What an evaluator answers depends on its names only in how they read the expression.
-/
namespace Calculator

namespace Evaluators

variable {evaluators : Evaluators} {name : String} {active : List String}

/-- The number of evaluators without an evaluation in progress. -/
def idle (evaluators : Evaluators) (active : List String) : Nat :=
  (evaluators.filter fun entry => entry.1 ∉ active).length

theorem idle_le_length (evaluators : Evaluators) (active : List String) :
    evaluators.idle active ≤ evaluators.length := List.length_filter_le _ _

theorem mem_of_find? {evaluator : Evaluator} (found : evaluators.find? name = some evaluator) :
    (name, evaluator) ∈ evaluators := by
  rw [find?, List.lookup_eq_some_iff] at found
  obtain ⟨before, after, rfl, -⟩ := found
  exact List.mem_append_right _ List.mem_cons_self

/-- One evaluator less is idle when it begins to evaluate. -/
theorem idle_cons_lt {evaluator : Evaluator} (found : evaluators.find? name = some evaluator)
    (free : name ∉ active) : evaluators.idle (name :: active) < evaluators.idle active := by
  have split : (evaluators.filter fun entry => entry.1 ∉ name :: active) =
      (evaluators.filter fun entry => entry.1 ∉ active).filter fun entry => entry.1 ≠ name := by
    rw [List.filter_filter]
    refine List.filter_congr fun entry _ => ?_
    simp
  rw [idle, idle, split]
  refine List.length_filter_lt_length_iff_exists.2 ⟨(name, evaluator), ?_, by simp⟩
  exact List.mem_filter.2 ⟨mem_of_find? found, by simpa using free⟩

/-- The evaluators with one under a name, in place of any other. -/
def put (evaluators : Evaluators) (name : String) (evaluator : Evaluator) : Evaluators :=
  (name, evaluator) :: evaluators.filter fun entry => entry.1 ≠ name

theorem find?_put_self (evaluators : Evaluators) (name : String) (evaluator : Evaluator) :
    (evaluators.put name evaluator).find? name = some evaluator := List.lookup_cons_self

theorem find?_put_of_ne (evaluators : Evaluators) {name other : String} (evaluator : Evaluator)
    (apart : other ≠ name) : (evaluators.put name evaluator).find? other = evaluators.find? other := by
  have different : (other == name) = false := beq_eq_false_iff_ne.2 apart
  rw [find?, put, List.lookup_cons, different, find?]
  dsimp only
  induction evaluators with
  | nil => rfl
  | cons entry rest ih =>
    obtain ⟨key, found⟩ := entry
    by_cases same : key = name
    · subst same
      rw [List.filter_cons_of_neg (by simp), ih, List.lookup_cons, different]
    · rw [List.filter_cons_of_pos (by simpa using same), List.lookup_cons, List.lookup_cons, ih]

/-- Evaluators under the same names with the same settings, that know the same names
    wherever no evaluation is in progress. -/
structure Agree (evaluators others : Evaluators) (active : List String) : Prop where
  settings : ∀ name, (evaluators.find? name).map (·.settings) = (others.find? name).map (·.settings)
  free : ∀ name ∉ active, evaluators.find? name = others.find? name

theorem Agree.mono {others : Evaluators} {more : List String}
    (agree : evaluators.Agree others active) (fewer : active ⊆ more) :
    evaluators.Agree others more :=
  ⟨agree.settings, fun name free => agree.free name fun busy => free (fewer busy)⟩

theorem Agree.refl (evaluators : Evaluators) (active : List String) :
    evaluators.Agree evaluators active := ⟨fun _ => rfl, fun _ _ => rfl⟩

/-- Evaluators of which one knows another vocabulary agree while that one evaluates. -/
theorem agree_put {settings : Settings} {v : Vocabulary}
    (found : evaluators.find? name = some ⟨settings, v⟩) (w : Vocabulary) (busy : name ∈ active) :
    evaluators.Agree (evaluators.put name ⟨settings, w⟩) active := by
  constructor
  · intro other
    by_cases same : other = name
    · subst same
      rw [find?_put_self, found]
      rfl
    · rw [find?_put_of_ne _ _ same]
  · intro other free
    have apart : other ≠ name := by
      rintro rfl
      exact free busy
    rw [find?_put_of_ne _ _ apart]

end Evaluators

namespace Run

variable {related : Machine → Machine → Prop} {m n : Machine} {evaluators others : Evaluators}
  {name expression : String} {evaluator : Evaluator} {active : List String}

open Machine

/-! ## One evaluation -/

theorem evaluateWithin_of_none (absent : evaluators.find? name = none) (depth : Nat) :
    evaluateWithin evaluators depth name expression = pure none := by
  unfold evaluateWithin
  rw [absent]

theorem evaluateWithin_of_busy (found : evaluators.find? name = some evaluator)
    (busy : name ∈ m.active) (depth : Nat) :
    evaluateWithin evaluators depth name expression m =
      some (some (evaluator.settings.settle (.error .reentrant)),
        m.rejected evaluator.settings expression) := by
  have rejects : m.isBusy name = true := List.contains_iff_mem.2 busy
  unfold evaluateWithin
  rw [found]
  change (if m.isBusy name then some <$> reject evaluator.settings expression else _ : Run _) m = _
  rw [if_pos rejects]
  exact map_eq some (reject_eq _ _ m)

theorem evaluateWithin_of_idle (found : evaluators.find? name = some evaluator)
    (free : name ∉ m.active) (depth : Nat) :
    evaluateWithin evaluators (depth + 1) name expression m =
      (some <$> accept (evaluateWithin evaluators depth) name evaluator expression : Run _) m := by
  have accepts : ¬ m.isBusy name = true := fun busy => free (List.contains_iff_mem.1 busy)
  rw [evaluateWithin, found]
  change (if m.isBusy name then _ else _ : Run _) m = _
  rw [if_neg accepts]

/-! ## Evaluations inside one another -/

/-- Evaluations over agreeing evaluators agree, whatever nesting is allowed for beyond the
    number of evaluators that are idle. -/
theorem agreeing_evaluateWithin (bisimulation : Bisimulation related) {depth depth' : Nat}
    (agree : evaluators.Agree others active) (enough : evaluators.idle active ≤ depth)
    (enough' : others.idle active ≤ depth') :
    Agreeing related active (evaluateWithin evaluators depth) (evaluateWithin others depth') := by
  induction depth using Nat.strong_induction_on generalizing depth' active with
  | h depth ih =>
    rintro name expression m n holds rfl
    have same := bisimulation.active holds
    have start : Lockstep related m.active m n m n := ⟨holds, .refl _ _, .refl _ _⟩
    have settings := agree.settings name
    cases found : evaluators.find? name with
    | none =>
      have missing : others.find? name = none := by simpa [found, eq_comm] using settings
      rw [evaluateWithin_of_none found, evaluateWithin_of_none missing]
      exact agree_pure start none
    | some e =>
      obtain ⟨f, found', alike⟩ : ∃ f, others.find? name = some f ∧ f.settings = e.settings := by
        simpa [found, eq_comm] using settings
      by_cases busy : name ∈ m.active
      · refine ⟨_, _, _, evaluateWithin_of_busy found busy _,
          alike ▸ evaluateWithin_of_busy found' (same ▸ busy) _, ?_⟩
        exact (start.note bisimulation _ _ _).settled bisimulation _ _
      · -- The evaluator is idle, so there is nesting left on both sides.
        have left := Evaluators.idle_cons_lt found busy
        have right := Evaluators.idle_cons_lt found' busy
        obtain ⟨rest, rfl⟩ : ∃ rest, depth = rest + 1 := ⟨depth - 1, by omega⟩
        obtain ⟨rest', rfl⟩ : ∃ rest', depth' = rest' + 1 := ⟨depth' - 1, by omega⟩
        obtain rfl : e = f := Option.some.inj (found.symm.trans ((agree.free name busy).trans found'))
        have agreeing : Agreeing related (name :: m.active) (evaluateWithin evaluators rest)
            (evaluateWithin others rest') := by
          refine ih rest (Nat.lt_succ_self rest) (agree.mono (List.subset_cons_self _ _)) ?_ ?_
          · omega
          · omega
        have accepted : Agree (Lockstep related m.active m n)
            (accept (evaluateWithin evaluators rest) name e expression)
            (accept (evaluateWithin others rest') name e expression) m n :=
          agree_accept bisimulation holds busy agreeing rfl rfl
        obtain ⟨answer, m', n', ran, ran', after⟩ := accepted.map some
        refine ⟨answer, m', n', ?_, ?_, after⟩
        · exact (evaluateWithin_of_idle found busy rest).trans ran
        · exact (evaluateWithin_of_idle found' (same ▸ busy) rest').trans ran'

theorem agreeing_evaluate (bisimulation : Bisimulation related)
    (agree : evaluators.Agree others active) :
    Agreeing related active (evaluate evaluators) (evaluate others) :=
  fun name expression => agreeing_evaluateWithin bisimulation agree
    (Evaluators.idle_le_length _ _) (Evaluators.idle_le_length _ _) name expression

/-! ## Evaluations return, whatever nesting is allowed for -/

theorem Agree.eq {α : Type} {outer : List String} {before other : Machine} {r s : Run α}
    (agree : Agree (Lockstep (· = ·) outer before other) r s m n) : r m = s n := by
  obtain ⟨answer, m', n', left, right, after⟩ := agree
  rw [left, right, after.related]

/-- An evaluation returns and finds every evaluation in progress as it was. -/
theorem evaluate_returns (evaluators : Evaluators) (name expression : String) (m : Machine) :
    ∃ answer m', evaluate evaluators name expression m = some (answer, m') ∧
      m.Keeps m.active m' := by
  obtain ⟨answer, m', n', ran, -, after⟩ :=
    agreeing_evaluate bisimulation_eq (.refl evaluators m.active) name expression m m rfl rfl
  exact ⟨answer, m', ran, after.left⟩

theorem evaluateWithin_eq {depth : Nat} (enough : evaluators.idle m.active ≤ depth) :
    evaluateWithin evaluators depth name expression m = evaluate evaluators name expression m :=
  (agreeing_evaluateWithin bisimulation_eq (.refl _ _) enough (Evaluators.idle_le_length _ _)
    name expression m m rfl rfl).eq

theorem evaluate_of_none (absent : evaluators.find? name = none) :
    evaluate evaluators name expression = pure none := evaluateWithin_of_none absent _

theorem evaluate_of_busy (found : evaluators.find? name = some evaluator)
    (busy : name ∈ m.active) :
    evaluate evaluators name expression m =
      some (some (evaluator.settings.settle (.error .reentrant)),
        m.rejected evaluator.settings expression) :=
  evaluateWithin_of_busy found busy _

/-- On an idle evaluator the expression is read, and callables evaluate as everyone does. -/
theorem evaluate_of_idle (found : evaluators.find? name = some evaluator)
    (free : name ∉ m.active) :
    evaluate evaluators name expression m =
      (some <$> accept (evaluate evaluators) name evaluator expression : Run _) m := by
  have fewer := Evaluators.idle_cons_lt found free
  have most := Evaluators.idle_le_length evaluators m.active
  obtain ⟨depth, size⟩ : ∃ depth, evaluators.length = depth + 1 :=
    ⟨evaluators.length - 1, by omega⟩
  have agreeing : Agreeing (· = ·) (name :: m.active) (evaluateWithin evaluators depth)
      (evaluate evaluators) := by
    intro name' expression'
    refine agreeing_evaluateWithin bisimulation_eq (.refl _ _) ?_
      (Evaluators.idle_le_length _ _) name' expression'
    omega
  have accepted : Agree (Lockstep (· = ·) m.active m m)
      (accept (evaluateWithin evaluators depth) name evaluator expression)
      (accept (evaluate evaluators) name evaluator expression) m m :=
    agree_accept bisimulation_eq rfl free agreeing rfl rfl
  rw [evaluate, size, evaluateWithin_of_idle found free]
  exact (accepted.map some).eq

/-- What an evaluator answers for an expression depends on its names only in how they read
    it: until it is done, the evaluator rejects whatever else is evaluated on it. -/
theorem evaluate_put {settings : Settings} {v w : Vocabulary}
    (found : evaluators.find? name = some ⟨settings, v⟩)
    (reads : Grammar.expression v (.ofString expression) =
      Grammar.expression w (.ofString expression)) (m : Machine) :
    evaluate evaluators name expression m =
      evaluate (evaluators.put name ⟨settings, w⟩) name expression m := by
  have found' := evaluators.find?_put_self name ⟨settings, w⟩
  by_cases busy : name ∈ m.active
  · rw [evaluate_of_busy found busy, evaluate_of_busy found' busy]
  · rw [evaluate_of_idle found busy, evaluate_of_idle found' busy]
    have agreeing : Agreeing (· = ·) (name :: m.active) (evaluate evaluators)
        (evaluate (evaluators.put name ⟨settings, w⟩)) :=
      agreeing_evaluate bisimulation_eq (Evaluators.agree_put found w List.mem_cons_self)
    have accepted : Agree (Lockstep (· = ·) m.active m m)
        (accept (evaluate evaluators) name ⟨settings, v⟩ expression)
        (accept (evaluate (evaluators.put name ⟨settings, w⟩)) name ⟨settings, w⟩ expression)
        m m := agree_accept bisimulation_eq rfl busy agreeing rfl reads
    exact (accepted.map some).eq

end Run

end Calculator
