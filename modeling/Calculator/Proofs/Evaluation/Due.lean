import Calculator.Proofs.Evaluation.Operands

/-!
# When a call is due

A reading is followed with the history of the calls made so far. A call is due when its
operands or arguments are what was evaluated last, and it receives their values. A reading is
orderly if its calls are due when they are made, belong to occurrences that no earlier call
belongs to, and come to an end with the first that fails; and so is every course of it.
-/
namespace Calculator
open Unread

/-! ## When a call is due -/

/-- After a history a call may be made at a place: its operands or arguments are what was
    evaluated last, and it receives their values. -/
inductive Due (v : Vocabulary) : List Exchange → Call → Site → Prop where
  /-- The chain in front of an operator was evaluated, and then the operand behind it. -/
  | operator {earlier left right : List Exchange} {tier : Tier} {chain operand : Tree}
      {a b c d : Cursor} {name : String} {op : Operator} {x y : Float}
      (listed : (name, op) ∈ v.operatorsOf tier) (nonempty : name.toList ≠ [])
      (before : chain.Evaluated v (.chain tier) a b left x) (named : b.Passes name.toList c)
      (behind : operand.Evaluated v tier.operands c d right y) :
      Due v (earlier ++ (left ++ right)) (.operator name op x y) ⟨b.place, d⟩
  /-- The arguments in the parentheses behind a name were evaluated. -/
  | function {earlier inside : List Exchange} {arguments : Arguments} {a b c d : Cursor}
      {name : String} {f : Function} {xs : List Float}
      (listed : (name, f) ∈ v.functions.entries) (nonempty : name.toList ≠ [])
      (named : a.Passes name.toList b) (opened : b.Passes ['('] c)
      (values : arguments.Evaluated v c d inside xs) :
      Due v (earlier ++ inside) (.function name f xs) ⟨a.place, d⟩

/-- The name of what a call runs stands at a place of the text, and has been passed. -/
structure Named (request : Call) (site : Site) : Prop where
  nonempty : (request.occurrence site.place).name.toList ≠ []
  stands : (request.occurrence site.place).name.toList <+: site.cursor.text.drop site.place
  passed : (request.occurrence site.place).ends ≤ site.cursor.location

theorem Due.named {v : Vocabulary} {history : List Exchange} {request : Call} {site : Site}
    (due : Due v history request site) : Named request site := by
  cases due with
  | operator listed nonempty before named behind =>
    refine ⟨nonempty, ?_, named.place_add_le.trans behind.placed.within.location_le⟩
    have same := behind.placed.text.trans named.text
    exact same ▸ named.prefix_drop
  | function listed nonempty named opened values =>
    have inside := opened.within.trans values.placed.within
    refine ⟨nonempty, ?_, named.place_add_le.trans inside.location_le⟩
    have same := inside.text.trans named.text
    exact same ▸ named.prefix_drop

/-! ## Histories -/

/-- The names of all calls of a history lie before a position. -/
def Behind (history : List Exchange) (c : Cursor) : Prop :=
  ∀ made ∈ history, made.occurrence.ends ≤ c.location

section

variable {a b c d : Cursor} {history made : List Exchange} {tokens : List (List Char)}

theorem Behind.nil (c : Cursor) : Behind [] c :=
  fun _ listed => absurd listed List.not_mem_nil

theorem Behind.within (behind : Behind history a) (within : a.Within c) : Behind history c :=
  fun call listed => (behind call listed).trans within.location_le

theorem Placed.inside_exchange (placed : Placed a c tokens (made.map Exchange.occurrence))
    {call : Exchange} (listed : call ∈ made) :
    a.location ≤ call.occurrence.place ∧ call.occurrence.ends ≤ c.location :=
  placed.inside _ (List.mem_map_of_mem listed)

theorem Behind.append (behind : Behind history a)
    (placed : Placed a c tokens (made.map Exchange.occurrence)) : Behind (history ++ made) c := by
  intro call listed
  rcases List.mem_append.1 listed with listed | listed
  · exact behind.within placed.within call listed
  · exact (placed.inside_exchange listed).2

/-- A name that stands between what was evaluated before it and behind it was not run yet. -/
theorem Behind.apart (behind : Behind history b) {name : String}
    (named : b.Passes name.toList c) (placed : Placed c d tokens (made.map Exchange.occurrence))
    (callable : Operator ⊕ Function) :
    ∀ call ∈ history ++ made, call.occurrence.Apart ⟨b.place, name, callable⟩ := by
  intro call listed
  rcases List.mem_append.1 listed with listed | listed
  · exact .inl ((behind call listed).trans b.location_le_place)
  · exact .inr (named.place_add_le.trans (placed.inside_exchange listed).1)

end

namespace Reader

variable {α β : Type} {start : Cursor} {v : Vocabulary}
  {reaches : List Exchange → α → Cursor → Prop}

/-- After a history the calls of the reading are due when they are made, and none belongs to
    an occurrence of an earlier call; a failing one ends the reading. A value is reached with
    the whole history behind it. -/
inductive Orderly (v : Vocabulary) (reaches : List Exchange → α → Cursor → Prop) :
    List Exchange → Reader α start → Prop where
  | value {history : List Exchange} {x : α} {c : Cursor}
      {forward : c.ahead.length ≤ start.ahead.length} (reached : reaches history x c) :
      Orderly v reaches history (.done ⟨.ok x, c, forward⟩)
  | failure {history : List Exchange} {e : EvaluationError} {c : Cursor}
      {forward : c.ahead.length ≤ start.ahead.length} :
      Orderly v reaches history (.done ⟨.error e, c, forward⟩)
  | call {history : List Exchange} {request : Call} {site : Site}
      {resume : CallResult → Reader α start} (due : Due v history request site)
      (apart : ∀ made ∈ history, made.occurrence.Apart (request.occurrence site.place))
      (answered : ∀ x, Orderly v reaches (history ++ [⟨request, site, .ok x⟩]) (resume (.ok x)))
      (refused : ∀ cause, ∃ c le,
        resume (.error cause) = Reader.failure (request.failure cause) c le) :
      Orderly v reaches history (.call request site resume)

theorem Orderly.mono {other : List Exchange → α → Cursor → Prop} {history : List Exchange}
    {p : Reader α start} (orderly : Orderly v reaches history p)
    (weaker : ∀ whole x c, reaches whole x c → other whole x c) : Orderly v other history p := by
  induction orderly with
  | value reached => exact .value (weaker _ _ _ reached)
  | failure => exact .failure
  | call due apart _ refused ih => exact .call due apart ih refused

theorem Orderly.since {history : List Exchange} {p : Reader α start}
    (orderly : Orderly v reaches history p) {earlier : Cursor}
    {le : start.ahead.length ≤ earlier.ahead.length} :
    Orderly v reaches history (p.since earlier le) := by
  induction orderly with
  | value reached => exact .value reached
  | failure => exact .failure
  | call due apart _ refused ih =>
    refine .call due apart ih fun cause => ?_
    obtain ⟨c, forward, fails⟩ := refused cause
    exact ⟨c, forward.trans le, congrArg (Reader.since earlier le) fails⟩

theorem Orderly.andThen {reaches' : List Exchange → β → Cursor → Prop} {history : List Exchange}
    {p : Reader α start}
    {next : (x : α) → (c : Cursor) → c.ahead.length ≤ start.ahead.length → Reader β c}
    (orderly : Orderly v reaches history p)
    (continued : ∀ whole x c le, reaches whole x c → Orderly v reaches' whole (next x c le)) :
    Orderly v reaches' history (p.andThen next) := by
  induction orderly with
  | value reached => exact (continued _ _ _ _ reached).since
  | failure => exact .failure
  | call due apart _ refused ih =>
    refine .call due apart ih fun cause => ?_
    obtain ⟨c, forward, fails⟩ := refused cause
    exact ⟨c, forward, congrArg (Reader.andThen · next) fails⟩

theorem Orderly.ask {history : List Exchange} {place : Nat} {request : Call}
    {next : Float → Reader α start} (due : Due v history request ⟨place, start⟩)
    (apart : ∀ made ∈ history, made.occurrence.Apart (request.occurrence place))
    (answered : ∀ x,
      Orderly v reaches (history ++ [⟨request, ⟨place, start⟩, .ok x⟩]) (next x)) :
    Orderly v reaches history (ask place request next) :=
  .call due apart answered fun _ => ⟨start, Nat.le_refl _, rfl⟩

theorem Orderly.settled {history : List Exchange} {result : Except EvaluationError α} {c : Cursor}
    {forward : c.ahead.length ≤ start.ahead.length}
    (reached : ∀ x, result = .ok x → reaches history x c) :
    Orderly v reaches history (settled result c forward) := by
  cases result with
  | error e => exact .failure
  | ok x => exact .value (reached x rfl)

/-! ## Courses -/

/-- What a course adds to a history: every call is due when it is made, no two belong to one
    occurrence, and a failing call is the last one. -/
structure InOrder (v : Vocabulary) (history made : List Exchange)
    (result : Except EvaluationError α) : Prop where
  due : ∀ earlier call later, made = earlier ++ call :: later →
    Due v (history ++ earlier) call.request call.site
  before : ∀ other ∈ history, ∀ call ∈ made, other.occurrence.Apart call.occurrence
  once : made.Pairwise fun other call => other.occurrence.Apart call.occurrence
  last : ∀ earlier call later cause, made = earlier ++ call :: later →
    call.answer = .error cause → later = [] ∧ result = .error (call.request.failure cause)

theorem InOrder.nil {history : List Exchange} {result : Except EvaluationError α} :
    InOrder v history [] result where
  due _ _ _ split := absurd split (by simp)
  before _ _ _ listed := absurd listed List.not_mem_nil
  once := .nil
  last _ _ _ _ split := absurd split (by simp)

/-- One call more in front: it is due, and the others come with it in their history. -/
theorem InOrder.cons {history made : List Exchange} {call : Exchange}
    {result : Except EvaluationError α} (due : Due v history call.request call.site)
    (apart : ∀ other ∈ history, other.occurrence.Apart call.occurrence)
    (failing : ∀ cause, call.answer = .error cause →
      made = [] ∧ result = .error (call.request.failure cause))
    (rest : InOrder v (history ++ [call]) made result) :
    InOrder v history (call :: made) result where
  due earlier next later split := by
    rcases List.cons_eq_append_iff.1 split with ⟨rfl, same⟩ | ⟨others, rfl, same⟩
    · cases same
      rwa [List.append_nil]
    · have after := rest.due others next later same
      rwa [List.append_assoc] at after
  before other listed next among := by
    rcases List.mem_cons.1 among with rfl | among
    · exact apart other listed
    · exact rest.before other (List.mem_append_left _ listed) next among
  once := by
    refine List.pairwise_cons.2 ⟨fun next among => ?_, rest.once⟩
    exact rest.before call (List.mem_append_right _ List.mem_cons_self) next among
  last earlier next later cause split failed := by
    rcases List.cons_eq_append_iff.1 split with ⟨rfl, same⟩ | ⟨others, rfl, same⟩
    · cases same
      exact failing cause failed
    · exact rest.last others next later cause same failed

theorem Orderly.course {history : List Exchange} {p : Reader α start}
    (orderly : Orderly v reaches history p) {made : List Exchange} {reading : Reading α start}
    (course : p.Course made reading) :
    InOrder v history made reading.result ∧
      ∀ x, reading.result = .ok x → reaches (history ++ made) x reading.cursor := by
  induction orderly generalizing made with
  | value reached =>
    cases course
    refine ⟨.nil, fun y same => ?_⟩
    cases same
    rwa [List.append_nil]
  | failure =>
    cases course
    exact ⟨.nil, nofun⟩
  | call due apart _ refused ih =>
    cases course with
    | @call _ _ _ answer others _ rest =>
      cases answer with
      | ok x =>
        obtain ⟨inOrder, reached⟩ := ih x rest
        refine ⟨.cons due apart nofun inOrder, fun y value => ?_⟩
        have whole := reached y value
        rwa [List.append_assoc] at whole
      | error cause =>
        obtain ⟨c, le, fails⟩ := refused cause
        rw [fails] at rest
        cases rest
        refine ⟨.cons due apart (fun cause' same => ?_) .nil, nofun⟩
        cases same
        exact ⟨rfl, rfl⟩

/-- Every call of a course is made at a position within the text. -/
theorem Keeps.course {p : Reader α start} (keeps : Keeps p) {made : List Exchange}
    {reading : Reading α start} (course : p.Course made reading) :
    ∀ call ∈ made, start.Within call.site.cursor := by
  induction keeps generalizing made with
  | done within _ =>
    cases course
    exact nofun
  | call within _ refused ih =>
    cases course with
    | @call _ _ _ answer others _ rest =>
      refine List.forall_mem_cons.2 ⟨within, ?_⟩
      cases answer with
      | ok x => exact ih x rest
      | error cause =>
        obtain ⟨c, _, fails⟩ := refused cause
        rw [fails] at rest
        cases rest
        exact nofun

end Reader

end Calculator
