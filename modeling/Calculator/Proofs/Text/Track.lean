import Calculator.Proofs.Text.Unread

/-!
# Locations in a text

A position can be kept as a number: how many characters are in front of it. Nothing in the
number keeps it inside the text, every operation is arithmetic on it, and some operations take
back what they did. A track keeps with its location every location before it. Under any series
of operations a track answers as the position with the characters themselves does, and it has
never stood outside its text.
-/
namespace Calculator

/-- A location in a text, and every location on the way there. -/
structure Track where
  characters : List Char
  location : Nat
  /-- The locations before this one, the latest first. -/
  earlier : List Nat

namespace Track

/-- The track that begins in no text at all. -/
def empty : Track := ⟨[], 0, []⟩

def ofString (text : String) : Track := ⟨text.toList, 0, []⟩

/-- The number of characters of the whole text. -/
def size (t : Track) : Nat := t.characters.length

def isOver (t : Track) : Bool := t.size ≤ t.location

def unread (t : Track) : List Char := t.characters.drop t.location

/-- The number of characters that are unread. -/
def left (t : Track) : Nat := t.size - t.location

/-- The position at a location, with the characters on both sides of it. -/
def cursor (t : Track) : Cursor := ⟨(t.characters.take t.location).reverse, t.unread⟩

def moveTo (t : Track) (location : Nat) : Track :=
  { t with location, earlier := t.location :: t.earlier }

theorem left_step {t : Track} {c : Char} (found : t.characters[t.location]? = some c) :
    (t.moveTo (t.location + 1)).left < t.left := by
  obtain ⟨inside, -⟩ := List.getElem?_eq_some_iff.1 found
  simp only [left, size, moveTo]
  omega

/-! ## Operations -/

/-- Passes the longest run of ignored characters, one by one. -/
def skipIgnored (t : Track) : Track :=
  match _found : t.characters[t.location]? with
  | none => t
  | some c => if Character.isIgnored c then (t.moveTo (t.location + 1)).skipIgnored else t
termination_by t.left
decreasing_by exact left_step _found

/-- Passes characters up to the first one that is taken: ignored ones are not if `past` is
    set. -/
def next (t : Track) (past : Bool) : Except EvaluationError Char × Track :=
  match _found : t.characters[t.location]? with
  | none => (.error (.endOfInput t.location), t)
  | some c =>
    if past && Character.isIgnored c then (t.moveTo (t.location + 1)).next past
    else (.ok c, t.moveTo (t.location + 1))
termination_by t.left
decreasing_by exact left_step _found

/-- Passes a literal with the ignored characters around it, if it comes next. Otherwise the
    location from before the ignored characters is taken up again. -/
def accept (t : Track) (literal : String) : Bool × Track :=
  let skipped := t.skipIgnored
  if literal.toList.isPrefixOf skipped.unread then
    (true, (skipped.moveTo (skipped.location + literal.length)).skipIgnored)
  else (false, skipped.moveTo t.location)

def acceptCharacter (t : Track) (c : Char) : Bool × Track := t.accept (String.singleton c)

/-- Accepts literals one after another, up to the first that is missed. -/
def acceptAll (t : Track) : List String → Bool × Track
  | [] => (true, t)
  | literal :: literals =>
    match t.accept literal with
    | (true, u) => u.acceptAll literals
    | (false, u) => (false, u)

/-- Whether the literals come next, one after another. The location is taken up again. -/
def lookahead (t : Track) (literals : List String) : Bool × Track :=
  let tried := t.acceptAll literals
  (tried.1, tried.2.moveTo t.location)

/-- Moves back over one character; at the start nothing changes. -/
def retreat (t : Track) : Track := t.moveTo (t.location - 1)

/-! ## What an operation leaves unread -/

section

variable (t : Track)

@[simp] theorem cursor_ahead : t.cursor.ahead = t.unread := rfl

@[simp] theorem cursor_text : t.cursor.text = t.characters := by
  simp [cursor, Cursor.text, unread]

theorem unread_length : t.unread.length = t.left := List.length_drop

theorem ahead_length : t.cursor.ahead.length = t.left := t.unread_length

theorem isOver_iff : t.isOver = true ↔ t.unread = [] := by
  rw [isOver, decide_eq_true_iff, unread, List.drop_eq_nil_iff, size]

end

variable {t u : Track}

/-- The character at the location is the first that is unread. -/
theorem unread_of_found {c : Char} (found : t.characters[t.location]? = some c) :
    t.unread = c :: (t.moveTo (t.location + 1)).unread := by
  obtain ⟨inside, rfl⟩ := List.getElem?_eq_some_iff.1 found
  exact List.drop_eq_getElem_cons inside

theorem unread_of_end (ended : t.characters[t.location]? = none) : t.unread = [] :=
  List.drop_eq_nil_of_le (List.getElem?_eq_none_iff.1 ended)

theorem unread_skipIgnored (t : Track) : t.skipIgnored.unread = Unread.skip t.unread := by
  fun_induction skipIgnored t with
  | case1 t ended => rw [unread_of_end ended, Unread.skip_nil]
  | case2 t c found ignored ih => rw [ih, unread_of_found found, Unread.skip, Unread.skip,
      List.dropWhile_cons_of_pos ignored]
  | case3 t c found kept => rw [unread_of_found found, Unread.skip_cons (eq_false_of_ne_true kept)]

theorem next_of_nil (past : Bool) (ended : t.unread = []) :
    t.next past = (.error (.endOfInput t.location), t) := by
  rw [next]
  split
  · rfl
  · rename_i c found
    cases (unread_of_found found).symm.trans ended

theorem next_of_cons (past : Bool) {c : Char} {rest : List Char} (ahead : t.unread = c :: rest) :
    t.next past =
      if past && Character.isIgnored c then (t.moveTo (t.location + 1)).next past
      else (.ok c, t.moveTo (t.location + 1)) := by
  rw [next]
  split
  · rename_i ended
    cases (unread_of_end ended).symm.trans ahead
  · rename_i first found
    cases (unread_of_found found).symm.trans ahead
    rfl

/-- Taking a character past ignored ones is passing these first. -/
theorem next_true (t : Track) : t.next true = t.skipIgnored.next false := by
  fun_induction skipIgnored t with
  | case1 t ended => rw [next_of_nil _ (unread_of_end ended), next_of_nil _ (unread_of_end ended)]
  | case2 t c found ignored ih => rw [next_of_cons _ (unread_of_found found), ignored, ← ih]; rfl
  | case3 t c found kept =>
    rw [next_of_cons _ (unread_of_found found), next_of_cons _ (unread_of_found found),
      eq_false_of_ne_true kept]
    rfl

/-! ## On the way -/

/-- The second track is reached from the first within the text, and no location on the way is
    in front of the first one's. -/
structure Onward (t u : Track) : Prop where
  characters : u.characters = t.characters
  low : t.location ≤ u.location
  high : u.location ≤ max t.location t.size
  passed : ∃ on, u.earlier = on ++ t.earlier ∧
    ∀ l ∈ on, t.location ≤ l ∧ l ≤ max t.location t.size

namespace Onward

theorem refl (t : Track) : t.Onward t :=
  ⟨rfl, le_rfl, le_max_left _ _, [], rfl, nofun⟩

theorem size (onward : t.Onward u) : u.size = t.size := congrArg List.length onward.characters

theorem trans {w : Track} (first : t.Onward u) (second : u.Onward w) : t.Onward w := by
  have bound : max u.location u.size ≤ max t.location t.size :=
    max_le first.high (first.size.le.trans (le_max_right _ _))
  obtain ⟨on, earlier, inside⟩ := first.passed
  obtain ⟨further, later, beyond⟩ := second.passed
  refine ⟨second.characters.trans first.characters, first.low.trans second.low,
    second.high.trans bound, further ++ on, ?_, fun l passed => ?_⟩
  · rw [later, earlier, List.append_assoc]
  · rcases List.mem_append.1 passed with passed | passed
    · obtain ⟨low, high⟩ := beyond l passed
      exact ⟨first.low.trans low, high.trans bound⟩
    · exact inside l passed

/-- A location may be taken up again, but none in front of the start. -/
theorem moveTo (onward : t.Onward u) {location : Nat} (low : t.location ≤ location)
    (high : location ≤ max t.location t.size) : t.Onward (u.moveTo location) := by
  obtain ⟨on, earlier, inside⟩ := onward.passed
  refine ⟨onward.characters, low, high, u.location :: on, congrArg (u.location :: ·) earlier, ?_⟩
  exact List.forall_mem_cons.2 ⟨⟨onward.low, onward.high⟩, inside⟩

theorem left_le (onward : t.Onward u) : u.left ≤ t.left := by
  have low := onward.low
  rw [left, left, onward.size]
  omega

/-- A track that goes on leaves less unread, and only there. -/
theorem left_lt_iff (onward : t.Onward u) : u.left < t.left ↔ t.location < u.location := by
  have low := onward.low
  have high := onward.high
  rw [left, left, onward.size]
  omega

end Onward

/-- Passing what comes next leaves what is behind it. -/
theorem unread_pass {first rest : List Char} (ahead : t.unread = first ++ rest) :
    (t.moveTo (t.location + first.length)).unread = rest := by
  have behind := congrArg (List.drop first.length) ahead
  rwa [unread, List.drop_drop, List.drop_left] at behind

theorem onward_pass {first rest : List Char} (ahead : t.unread = first ++ rest) :
    t.Onward (t.moveTo (t.location + first.length)) := by
  have inside : first.length ≤ t.left := by
    rw [← unread_length, ahead, List.length_append]
    exact Nat.le_add_right _ _
  refine (Onward.refl t).moveTo (Nat.le_add_right _ _) ?_
  rw [left] at inside
  omega

theorem onward_step {c : Char} {rest : List Char} (ahead : t.unread = c :: rest) :
    t.Onward (t.moveTo (t.location + 1)) :=
  onward_pass (show t.unread = [c] ++ rest from ahead)

theorem unread_step {c : Char} {rest : List Char} (ahead : t.unread = c :: rest) :
    (t.moveTo (t.location + 1)).unread = rest :=
  unread_pass (show t.unread = [c] ++ rest from ahead)

theorem onward_skipIgnored (t : Track) : t.Onward t.skipIgnored := by
  fun_induction skipIgnored t with
  | case1 t ended => exact .refl t
  | case2 t c found ignored ih => exact (onward_step (unread_of_found found)).trans ih
  | case3 t c found kept => exact .refl t

theorem onward_next (t : Track) (past : Bool) : t.Onward (t.next past).2 := by
  have plain (u : Track) : u.Onward (u.next false).2 := by
    cases ahead : u.unread with
    | nil =>
      rw [next_of_nil _ ahead]
      exact .refl u
    | cons c rest =>
      rw [next_of_cons _ ahead]
      exact onward_step ahead
  cases past with
  | false => exact plain t
  | true =>
    rw [next_true]
    exact (onward_skipIgnored t).trans (plain _)

/-- The character that is taken is passed. -/
theorem lt_of_next {past : Bool} {c : Char} (taken : (t.next past).1 = .ok c) :
    t.location < (t.next past).2.location := by
  have plain {u : Track} (taken : (u.next false).1 = .ok c) :
      u.location < (u.next false).2.location := by
    cases ahead : u.unread with
    | nil =>
      rw [next_of_nil _ ahead] at taken
      cases taken
    | cons first rest =>
      rw [next_of_cons _ ahead]
      exact Nat.lt_succ_self _
  cases past with
  | false => exact plain taken
  | true =>
    rw [next_true] at taken ⊢
    exact (onward_skipIgnored t).low.trans_lt (plain taken)

/-- Moving back over a character that was taken does not move back behind the start. -/
theorem onward_retreat {past : Bool} {c : Char} (taken : (t.next past).1 = .ok c) :
    t.Onward (t.next past).2.retreat := by
  have onward := onward_next t past
  exact onward.moveTo (Nat.le_sub_one_of_lt (lt_of_next taken)) ((Nat.sub_le _ _).trans onward.high)

/-! ## Literals -/

theorem accept_of_found {literal : String} {behind : List Char}
    (ahead : Unread.skip t.unread = literal.toList ++ behind) :
    t.accept literal =
      (true, (t.skipIgnored.moveTo (t.skipIgnored.location + literal.length)).skipIgnored) := by
  rw [accept]
  simp only [unread_skipIgnored, ahead, List.isPrefixOf_iff_prefix, List.prefix_append, if_true]

theorem accept_of_missed {literal : String} (missed : ¬ literal.toList <+: Unread.skip t.unread) :
    t.accept literal = (false, t.skipIgnored.moveTo t.location) := by
  rw [accept]
  simp only [unread_skipIgnored, List.isPrefixOf_iff_prefix, missed, if_false]

theorem accept_eq_true_iff {literal : String} :
    (t.accept literal).1 = true ↔ literal.toList <+: Unread.skip t.unread := by
  by_cases found : literal.toList <+: Unread.skip t.unread
  · obtain ⟨behind, ahead⟩ := found
    simp [accept_of_found ahead.symm, ← ahead]
  · simp [accept_of_missed found, found]

theorem unread_accept {literal : String} {behind : List Char}
    (ahead : Unread.skip t.unread = literal.toList ++ behind) :
    (t.accept literal).2.unread = Unread.skip behind := by
  rw [← unread_skipIgnored] at ahead
  rw [accept_of_found (by rwa [← unread_skipIgnored]), unread_skipIgnored, ← String.length_toList,
    unread_pass ahead]

/-- Where a literal is missed, the location is the one from before. -/
theorem location_accept {literal : String} (missed : (t.accept literal).1 = false) :
    (t.accept literal).2.location = t.location := by
  rw [accept_of_missed fun found => ?_]
  · rfl
  · rw [accept_eq_true_iff.2 found] at missed
    cases missed

theorem onward_accept (t : Track) (literal : String) : t.Onward (t.accept literal).2 := by
  have skipped := onward_skipIgnored t
  by_cases found : literal.toList <+: Unread.skip t.unread
  · obtain ⟨behind, ahead⟩ := found
    rw [accept_of_found ahead.symm]
    rw [← unread_skipIgnored] at ahead
    have passed := onward_pass ahead.symm
    rw [String.length_toList] at passed
    exact (skipped.trans passed).trans (onward_skipIgnored _)
  · rw [accept_of_missed found]
    exact skipped.moveTo le_rfl (le_max_left _ _)

theorem onward_acceptAll (t : Track) (literals : List String) :
    t.Onward (t.acceptAll literals).2 := by
  induction literals generalizing t with
  | nil => exact .refl t
  | cons literal literals ih =>
    have first := onward_accept t literal
    rw [acceptAll]
    split
    · rename_i u found
      rw [found] at first
      exact first.trans (ih u)
    · rename_i u missed
      rw [missed] at first
      exact first

theorem onward_lookahead (t : Track) (literals : List String) :
    t.Onward (t.lookahead literals).2 :=
  (onward_acceptAll t literals).moveTo le_rfl (le_max_left _ _)

/-! ## Tracks and positions -/

/-- A position is settled by its text and what is unread of it. -/
theorem eq_of_unread {c d : Cursor} (text : c.text = d.text) (ahead : c.ahead = d.ahead) : c = d := by
  obtain ⟨passed, unread⟩ := c
  obtain ⟨passed', unread'⟩ := d
  cases ahead
  exact congrArg (Cursor.mk · unread) (List.reverse_injective (List.append_cancel_right text))

theorem cursor_eq {d : Cursor} (kept : u.characters = t.characters)
    (text : d.text = t.cursor.text) (ahead : d.ahead = u.unread) : u.cursor = d := by
  refine eq_of_unread ?_ ahead.symm
  rw [cursor_text, kept, text, cursor_text]

/-- At one location of one text the same is unread. -/
theorem unread_congr (kept : u.characters = t.characters) (same : u.location = t.location) :
    u.unread = t.unread := by
  rw [unread, unread, kept, same]

theorem cursor_location (inside : t.location ≤ t.size) : t.cursor.location = t.location := by
  rw [cursor, Cursor.location, List.length_reverse, List.length_take_of_le inside]

theorem cursor_skipIgnored (t : Track) : t.skipIgnored.cursor = t.cursor.skipIgnored :=
  cursor_eq (onward_skipIgnored t).characters (Cursor.skipIgnored_text _) (unread_skipIgnored t).symm

theorem Onward.inside (onward : t.Onward u) (inside : t.location ≤ t.size) :
    u.location ≤ u.size := by
  rw [onward.size]
  exact onward.high.trans (max_le inside le_rfl)

theorem cursor_next (inside : t.location ≤ t.size) (past : Bool) :
    t.cursor.next past = ((t.next past).1, (t.next past).2.cursor) := by
  have plain {u : Track} (inside : u.location ≤ u.size) :
      u.cursor.next false = ((u.next false).1, (u.next false).2.cursor) := by
    cases ahead : u.unread with
    | nil =>
      rw [next_of_nil _ ahead]
      simp [Cursor.next, ahead, cursor_location inside]
    | cons c rest =>
      have taken : (u.cursor.next false).1 = .ok c ∧ (u.cursor.next false).2.ahead = rest := by
        simp [Cursor.next, ahead]
      have behind : rest = (u.moveTo (u.location + 1)).unread :=
        (unread_step ahead).symm
      rw [next_of_cons _ ahead]
      exact Prod.ext taken.1
        (cursor_eq (onward_step ahead).characters (Cursor.next_text _ _)
          (taken.2.trans behind)).symm
  cases past with
  | false => exact plain inside
  | true =>
    rw [next_true, ← plain ((onward_skipIgnored t).inside inside), cursor_skipIgnored]
    rfl

theorem cursor_accept (t : Track) (literal : String) :
    ((t.accept literal).1, (t.accept literal).2.cursor) =
      ((t.cursor.accept? literal).isSome, (t.cursor.accept? literal).getD t.cursor) := by
  have kept := (onward_accept t literal).characters
  have same := Unread.accept?_ahead t.cursor literal
  rw [cursor_ahead] at same
  cases accepted : t.cursor.accept? literal with
  | none =>
    rw [accepted, Option.map_none, eq_comm, Unread.accept?_eq_none_iff] at same
    have missed : (t.accept literal).1 = false := by
      rw [← Bool.not_eq_true, accept_eq_true_iff]
      rintro ⟨behind, ahead⟩
      exact same behind ahead.symm
    refine Prod.ext missed (cursor_eq kept rfl ?_)
    exact (unread_congr kept (location_accept missed)).symm
  | some d =>
    rw [accepted, Option.map_some, eq_comm, Unread.accept?_eq_some_iff] at same
    obtain ⟨behind, ahead, unread⟩ := same
    refine Prod.ext (accept_eq_true_iff.2 ⟨behind, ahead.symm⟩) ?_
    exact cursor_eq kept (Cursor.accept?_text accepted) (unread.trans (unread_accept ahead).symm)

theorem accept?_of_found {literal : String} (found : (t.accept literal).1 = true) :
    t.cursor.accept? literal = some (t.accept literal).2.cursor := by
  obtain ⟨some, passed⟩ := Prod.mk.inj (cursor_accept t literal)
  obtain ⟨d, accepted⟩ := Option.isSome_iff_exists.1 (some.symm.trans found)
  rw [passed, accepted, Option.getD_some]

theorem accept?_of_missed {literal : String} (missed : ¬ (t.accept literal).1 = true) :
    t.cursor.accept? literal = none ∧ (t.accept literal).2.cursor = t.cursor := by
  obtain ⟨some, passed⟩ := Prod.mk.inj (cursor_accept t literal)
  rw [some, Option.not_isSome_iff_eq_none] at missed
  rw [passed, missed]
  exact ⟨rfl, rfl⟩

theorem acceptAll_fst (t : Track) (literals : List String) :
    (t.acceptAll literals).1 = t.cursor.lookahead literals := by
  induction literals generalizing t with
  | nil => rfl
  | cons literal literals ih =>
    have same := cursor_accept t literal
    rw [acceptAll, Cursor.lookahead]
    split
    · rename_i u found
      rw [found] at same
      cases accepted : t.cursor.accept? literal with
      | none => simp [accepted] at same
      | some d =>
        rw [accepted] at same
        obtain ⟨-, reached⟩ := Prod.mk.inj same
        rw [ih, reached]
        rfl
    · rename_i u missed
      rw [missed] at same
      cases accepted : t.cursor.accept? literal with
      | none => rfl
      | some d => simp [accepted] at same

theorem cursor_lookahead (t : Track) (literals : List String) :
    ((t.lookahead literals).1, (t.lookahead literals).2.cursor) =
      (t.cursor.lookahead literals, t.cursor) := by
  have kept := (onward_lookahead t literals).characters
  exact Prod.ext (acceptAll_fst t literals) (cursor_eq kept rfl (unread_congr kept rfl).symm)

theorem cursor_retreat (inside : t.location ≤ t.size) : t.retreat.cursor = t.cursor.retreat := by
  have kept : t.retreat.characters = t.characters := rfl
  refine cursor_eq kept (Cursor.retreat_text _) ?_
  cases place : t.location with
  | zero =>
    have start : t.cursor.passed = [] := by simp [cursor, place]
    simp [Cursor.retreat, start, retreat, moveTo, unread, place]
  | succ before =>
    have held : before < t.characters.length := by
      rw [size] at inside
      omega
    have last : t.cursor.passed = t.characters[before] :: (t.characters.take before).reverse := by
      rw [cursor, place, List.take_succ_eq_append_getElem held, List.reverse_append]
      rfl
    rw [Cursor.retreat, last, cursor_ahead, unread, unread, retreat, moveTo, place]
    exact (List.drop_eq_getElem_cons held).symm

end Track

/-! ## Series of operations -/

namespace Cursor

/-- What can be asked of a position. -/
inductive Move where
  | load (text : String)
  | reset
  | next (past : Bool)
  | literal (text : String)
  | character (c : Char)
  | lookahead (literals : List String)
  | retreat
  | skipIgnored

/-- What is answered. -/
inductive Reply where
  | done
  | taken (result : Except EvaluationError Char)
  | matched (found : Bool)

/-- The replies to a series of operations, and where the last one leads. -/
def Move.series {σ : Type} (perform : σ → Move → Reply × σ) (s : σ) : List Move → List Reply × σ
  | [] => ([], s)
  | move :: moves =>
    let first := perform s move
    let others := series perform first.2 moves
    (first.1 :: others.1, others.2)

/-- A literal with its characters around it, or the position as it was. -/
def pass (c : Cursor) (literal : String) : Reply × Cursor :=
  (.matched (c.accept? literal).isSome, (c.accept? literal).getD c)

def perform (c : Cursor) : Move → Reply × Cursor
  | .load text => (.done, .ofString text)
  | .reset => (.done, .empty)
  | .next past => (.taken (c.next past).1, (c.next past).2)
  | .literal text => c.pass text
  | .character first => c.pass (String.singleton first)
  | .lookahead literals => (.matched (c.lookahead literals), c)
  | .retreat => (.done, c.retreat)
  | .skipIgnored => (.done, c.skipIgnored)

end Cursor

namespace Track
open Cursor (Move Reply)

def perform (t : Track) : Move → Reply × Track
  | .load text => (.done, .ofString text)
  | .reset => (.done, .empty)
  | .next past => (.taken (t.next past).1, (t.next past).2)
  | .literal text => (.matched (t.accept text).1, (t.accept text).2)
  | .character first => (.matched (t.acceptCharacter first).1, (t.acceptCharacter first).2)
  | .lookahead literals => (.matched (t.lookahead literals).1, (t.lookahead literals).2)
  | .retreat => (.done, t.retreat)
  | .skipIgnored => (.done, t.skipIgnored)

/-- The location and all locations before it lie in the text. -/
structure Inside (t : Track) : Prop where
  location : t.location ≤ t.size
  earlier : ∀ l ∈ t.earlier, l ≤ t.size

variable {t u : Track}

theorem Inside.onward (inside : t.Inside) (onward : t.Onward u) : u.Inside := by
  obtain ⟨on, earlier, passed⟩ := onward.passed
  have reach : max t.location t.size = u.size := by
    rw [onward.size, max_eq_right inside.location]
  refine ⟨reach ▸ onward.high, fun l before => ?_⟩
  rw [earlier] at before
  rcases List.mem_append.1 before with on | before
  · exact reach ▸ (passed l on).2
  · exact onward.size ▸ inside.earlier l before

theorem Inside.retreat (inside : t.Inside) : t.retreat.Inside :=
  ⟨(Nat.sub_le _ _).trans inside.location,
    List.forall_mem_cons.2 ⟨inside.location, inside.earlier⟩⟩

/-- No operation leads out of the text. -/
theorem Inside.perform (inside : t.Inside) (move : Move) : (t.perform move).2.Inside := by
  cases move with
  | load text => exact ⟨Nat.zero_le _, nofun⟩
  | reset => exact ⟨Nat.zero_le _, nofun⟩
  | next past => exact inside.onward (onward_next t past)
  | literal text => exact inside.onward (onward_accept t text)
  | character c => exact inside.onward (onward_accept t _)
  | lookahead literals => exact inside.onward (onward_lookahead t literals)
  | retreat => exact inside.retreat
  | skipIgnored => exact inside.onward (onward_skipIgnored t)

theorem cursor_pass (t : Track) (literal : String) :
    t.cursor.pass literal = (.matched (t.accept literal).1, (t.accept literal).2.cursor) := by
  obtain ⟨found, reached⟩ := Prod.mk.inj (cursor_accept t literal)
  rw [Cursor.pass, found, reached]

/-- Each operation answers as on the position, and leads to the same place. -/
theorem cursor_perform (inside : t.Inside) (move : Move) :
    t.cursor.perform move = ((t.perform move).1, (t.perform move).2.cursor) := by
  cases move with
  | load text => rfl
  | reset => rfl
  | next past =>
    rw [Cursor.perform, cursor_next inside.location]
    rfl
  | literal text => exact cursor_pass t text
  | character c => exact cursor_pass t _
  | lookahead literals =>
    obtain ⟨found, reached⟩ := Prod.mk.inj (cursor_lookahead t literals)
    rw [Cursor.perform, ← found, ← reached]
    rfl
  | retreat => rw [Cursor.perform, ← cursor_retreat inside.location]; rfl
  | skipIgnored => rw [Cursor.perform, ← cursor_skipIgnored]; rfl

theorem cursor_series (inside : t.Inside) (moves : List Move) :
    Move.series Cursor.perform t.cursor moves =
        ((Move.series perform t moves).1, (Move.series perform t moves).2.cursor) ∧
      (Move.series perform t moves).2.Inside := by
  induction moves generalizing t with
  | nil => exact ⟨rfl, inside⟩
  | cons move moves ih =>
    obtain ⟨same, within⟩ := ih (inside.perform move)
    refine ⟨?_, within⟩
    simp only [Move.series, cursor_perform inside move, same]

/-! ## What is unread settles the answers -/

/-- The track works as a list zipper: what an operation answers and what it leaves unread is
    settled by what is unread. -/
structure Zips (t : Track) : Prop where
  /-- A literal comes next exactly if the unread text begins with it behind its ignored
      characters. -/
  literal_iff (literal : String) :
    (t.accept literal).1 = true ↔ literal.toList <+: Unread.skip t.unread
  /-- It is passed with the ignored characters behind it. -/
  literal_passed (literal : String) (behind : List Char) :
    Unread.skip t.unread = literal.toList ++ behind →
      (t.accept literal).2.unread = Unread.skip behind
  literal_missed (literal : String) :
    (t.accept literal).1 = false → (t.accept literal).2.location = t.location
  literal_ignored (literal : String) (c : Char) :
    literal.toList.head? = some c → Character.isIgnored c = true → (t.accept literal).1 = false
  character_iff (c : Char) :
    (t.acceptCharacter c).1 = true ↔ (Unread.skip t.unread).head? = some c
  /-- Literals come next if each would be passed in its turn. -/
  lookahead_iff (literals : List String) :
    (t.lookahead literals).1 = true ↔
      (Move.series perform t (literals.map .literal)).1 = literals.map fun _ => .matched true
  lookahead_stays (literals : List String) : (t.lookahead literals).2.location = t.location
  next_found (c : Char) (rest : List Char) :
    Unread.skip t.unread = c :: rest →
      (t.next true).1 = .ok c ∧ (t.next true).2.unread = rest
  /-- Only ignored characters are left exactly if none is taken past them. -/
  next_fails_iff :
    (∃ e, (t.next true).1 = .error e) ↔ ∀ c ∈ t.unread, Character.isIgnored c = true
  /-- A character is missed at the end of the text, and the failure names it. -/
  next_failed (e : EvaluationError) :
    (t.next true).1 = .error e → e = .endOfInput t.size ∧ (t.next true).2.location = t.size
  /-- Moving back over a character that was taken, it comes next again. -/
  retreat_again (past : Bool) (c : Char) :
    (t.next past).1 = .ok c →
      ((t.next past).2.retreat.next past).1 = .ok c ∧
        ((t.next past).2.retreat.next false).1 = .ok c
  /-- Only another text takes the place of the text. -/
  text_kept (move : Move) :
    (∀ text, move ≠ .load text) → move ≠ .reset → (t.perform move).2.characters = t.characters

theorem accept_of_ignored {literal : String} {c : Char} (first : literal.toList.head? = some c)
    (ignored : Character.isIgnored c = true) : (t.accept literal).1 = false := by
  rw [← Bool.not_eq_true, accept_eq_true_iff]
  rintro ⟨behind, ahead⟩
  obtain ⟨rest, split⟩ := List.head?_eq_some_iff.1 first
  rw [split, List.cons_append, eq_comm] at ahead
  rw [Unread.isIgnored_of_skip_eq_cons ahead] at ignored
  cases ignored

theorem acceptCharacter_iff {c : Char} :
    (t.acceptCharacter c).1 = true ↔ (Unread.skip t.unread).head? = some c := by
  rw [acceptCharacter, accept_eq_true_iff, List.head?_eq_some_iff, String.toList_singleton]
  constructor
  · rintro ⟨behind, ahead⟩
    exact ⟨behind, ahead.symm⟩
  · rintro ⟨behind, ahead⟩
    exact ⟨behind, ahead.symm⟩

theorem acceptAll_iff (t : Track) (literals : List String) :
    (t.acceptAll literals).1 = true ↔
      (Move.series perform t (literals.map .literal)).1 = literals.map fun _ => .matched true := by
  induction literals generalizing t with
  | nil => exact iff_of_true rfl rfl
  | cons literal literals ih =>
    rw [acceptAll]
    split
    · rename_i u found
      simp only [List.map_cons, Move.series, perform, found, List.cons.injEq, true_and]
      exact ih u
    · rename_i u missed
      simp [Move.series, perform, missed]

theorem next_of_skip_cons {c : Char} {rest : List Char} (ahead : Unread.skip t.unread = c :: rest) :
    (t.next true).1 = .ok c ∧ (t.next true).2.unread = rest := by
  rw [← unread_skipIgnored] at ahead
  rw [next_true, next_of_cons _ ahead]
  exact ⟨rfl, unread_step ahead⟩

theorem next_of_skip_nil (ended : Unread.skip t.unread = []) :
    t.next true = (.error (.endOfInput t.skipIgnored.location), t.skipIgnored) := by
  rw [← unread_skipIgnored] at ended
  rw [next_true, next_of_nil _ ended]

/-- Behind a character that was taken and given back, it comes next, and without ignored
    characters in front of it if such were passed. -/
theorem unread_retreat {past : Bool} {c : Char} (taken : (t.next past).1 = .ok c) :
    ∃ rest, (t.next past).2.retreat.unread = c :: rest ∧
      (past && Character.isIgnored c) = false := by
  have plain {u : Track} (taken : (u.next false).1 = .ok c) :
      ∃ rest, (u.next false).2.retreat.unread = c :: rest ∧ u.unread = c :: rest := by
    cases ahead : u.unread with
    | nil =>
      rw [next_of_nil _ ahead] at taken
      cases taken
    | cons first rest =>
      rw [next_of_cons _ ahead] at taken ⊢
      cases taken
      refine ⟨rest, ?_, rfl⟩
      exact (unread_congr rfl (Nat.add_sub_cancel u.location 1)).trans ahead
  cases past with
  | false =>
    obtain ⟨rest, ahead, -⟩ := plain taken
    exact ⟨rest, ahead, rfl⟩
  | true =>
    rw [next_true] at taken ⊢
    obtain ⟨rest, ahead, behind⟩ := plain taken
    rw [unread_skipIgnored] at behind
    exact ⟨rest, ahead, Unread.isIgnored_of_skip_eq_cons behind⟩

theorem next_retreat {past : Bool} {c : Char} (taken : (t.next past).1 = .ok c) :
    ((t.next past).2.retreat.next past).1 = .ok c ∧
      ((t.next past).2.retreat.next false).1 = .ok c := by
  obtain ⟨rest, ahead, kept⟩ := unread_retreat taken
  rw [next_of_cons _ ahead, next_of_cons _ ahead, kept]
  exact ⟨rfl, rfl⟩

theorem location_of_end (inside : t.location ≤ t.size) (ended : t.unread = []) :
    t.location = t.size :=
  inside.antisymm (List.drop_eq_nil_iff.1 ended)

theorem characters_perform {move : Move} (loads : ∀ text, move ≠ .load text)
    (resets : move ≠ .reset) : (t.perform move).2.characters = t.characters := by
  cases move with
  | load text => exact absurd rfl (loads text)
  | reset => exact absurd rfl resets
  | next past => exact (onward_next t past).characters
  | literal text => exact (onward_accept t text).characters
  | character c => exact (onward_accept t _).characters
  | lookahead literals => exact (onward_lookahead t literals).characters
  | retreat => rfl
  | skipIgnored => exact (onward_skipIgnored t).characters

/-- Inside its text a track is settled by what is unread. -/
theorem Inside.zips (inside : t.Inside) : t.Zips where
  literal_iff _ := accept_eq_true_iff
  literal_passed _ _ := unread_accept
  literal_missed _ := location_accept
  literal_ignored _ _ := accept_of_ignored
  character_iff _ := acceptCharacter_iff
  lookahead_iff := acceptAll_iff t
  lookahead_stays _ := rfl
  next_found _ _ := next_of_skip_cons
  next_fails_iff := by
    cases ahead : Unread.skip t.unread with
    | nil =>
      rw [next_of_skip_nil ahead]
      refine iff_of_true ⟨_, rfl⟩ ?_
      exact List.dropWhile_eq_nil_iff.1 ahead
    | cons c rest =>
      rw [(next_of_skip_cons ahead).1]
      refine iff_of_false nofun fun blank => ?_
      have ended : Unread.skip t.unread = [] := List.dropWhile_eq_nil_iff.2 blank
      cases ahead.symm.trans ended
  next_failed e failed := by
    cases ahead : Unread.skip t.unread with
    | nil =>
      rw [next_of_skip_nil ahead] at failed ⊢
      have skipped := onward_skipIgnored t
      have ended := location_of_end (skipped.inside inside.location)
        ((unread_skipIgnored t).trans ahead)
      rw [skipped.size] at ended
      cases failed
      exact ⟨congrArg _ ended, ended⟩
    | cons c rest => cases (next_of_skip_cons ahead).1.symm.trans failed
  retreat_again _ _ := next_retreat
  text_kept _ := characters_perform

/-- After any series of operations a track has answered as a position does, stands where it
    does and has never left its text; and what is unread settles everything that is asked of
    it next. -/
theorem zips_of_series (moves : List Move) :
    let after := Move.series perform empty moves
    let position := Move.series Cursor.perform .empty moves
    after.1 = position.1 ∧ after.2.cursor = position.2 ∧ after.2.location = position.2.location ∧
      after.2.Inside ∧ after.2.Zips := by
  intro after position
  -- The two series start in no text, and each operation keeps them in step.
  have fresh : empty.Inside := ⟨Nat.zero_le _, nofun⟩
  obtain ⟨same, inside⟩ := cursor_series fresh moves
  have reached : position = (after.1, after.2.cursor) := same
  rw [reached]
  exact ⟨rfl, rfl, (cursor_location inside.location).symm, inside, inside.zips⟩

end Track

end Calculator
