import Calculator.Proofs.Evaluation.Branches
import Calculator.Proofs.Evaluation.Course
import Calculator.Proofs.Evaluation.Written

/-!
# Where a tree stands

A tree stands between two positions of a text if its tokens do, in order and with ignored
characters alone around them. Each operator and each call of the tree then has an
occurrence, at the place of its name. The occurrences are listed as a value is found:
operands from the left before their operator, and arguments before their call.
-/
namespace Calculator
open Unread

/-! ## Tokens between positions -/

namespace Cursor

/-- Between two positions of a text stands a token, and nothing but ignored characters
    around it. -/
structure Passes (a : Cursor) (token : List Char) (b : Cursor) : Prop where
  text : b.text = a.text
  ahead : ∃ gap, gap.all Character.isIgnored = true ∧ skip a.ahead = token ++ gap ++ b.ahead

variable {a b c : Cursor} {token : List Char}

theorem location_add_length (c : Cursor) : c.location + c.ahead.length = c.text.length := by
  rw [text, location, List.length_append, List.length_reverse]

theorem Within.location_le (within : a.Within b) : a.location ≤ b.location := by
  have here := location_add_length a
  have there := location_add_length b
  have forward := within.forward
  rw [within.text] at there
  omega

theorem location_le_place (c : Cursor) : c.location ≤ c.place :=
  (within_skipIgnored c).location_le

/-- What is ahead behind the ignored characters is the text from the place of the first other
    character. -/
theorem drop_place (c : Cursor) : c.text.drop c.place = skip c.ahead := by
  rw [← skipIgnored_text, text, place, location, ← List.length_reverse, List.drop_left,
    skipIgnored_ahead]

theorem Passes.writes (passes : a.Passes token b) : Writes [token] a.ahead b.ahead := by
  obtain ⟨gap, ignored, ahead⟩ := passes.ahead
  rw [List.append_assoc] at ahead
  have behind : Writes [] (gap ++ b.ahead) b.ahead := ⟨gap, rfl, .nil ignored⟩
  exact (writes_of_skip ahead).append behind

/-- No token at all stands there as well. -/
theorem Passes.writes_nil (passes : a.Passes [] b) : Writes [] a.ahead b.ahead := by
  obtain ⟨gap, ignored, ahead⟩ := passes.ahead
  have behind : Writes [] (skip a.ahead) b.ahead := ⟨gap, ahead, .nil ignored⟩
  exact (writes_skip a.ahead).append behind

theorem Passes.within (passes : a.Passes token b) : a.Within b :=
  ⟨passes.text, passes.writes.length_le⟩

/-- The token begins at its place and is over where the position has moved to. -/
theorem Passes.place_add_le (passes : a.Passes token b) :
    a.place + token.length ≤ b.location := by
  obtain ⟨gap, -, ahead⟩ := passes.ahead
  have begins := location_add_length a.skipIgnored
  have ends := location_add_length b
  rw [skipIgnored_text, skipIgnored_ahead, ahead, List.length_append, List.length_append] at begins
  rw [passes.text] at ends
  rw [place]
  omega

theorem Passes.prefix_drop (passes : a.Passes token b) : token <+: a.text.drop a.place := by
  obtain ⟨gap, -, ahead⟩ := passes.ahead
  rw [drop_place, ahead, List.append_assoc]
  exact List.prefix_append _ _

theorem passes_of_accept? {literal : String} (accepted : a.accept? literal = some b) :
    a.Passes literal.toList b := by
  have unread := accept?_ahead a literal
  rw [accepted, Option.map_some] at unread
  obtain ⟨behind, ahead, left⟩ := accept?_eq_some_iff.1 unread.symm
  obtain ⟨gap, ignored, split⟩ := exists_gap behind
  refine ⟨accept?_text accepted, gap, ignored, ?_⟩
  rw [left, ahead, List.append_assoc, ← split]

/-- A character that is taken behind the ignored ones; the position may move on past more. -/
theorem passes_of_next {found : Char} (next : a.next true = (.ok found, b)) :
    a.Passes [found] b ∧ a.Passes [found] b.skipIgnored := by
  have within := within_of_next next
  have ahead := Grammar.skip_of_next next
  obtain ⟨gap, ignored, split⟩ := exists_gap b.ahead
  refine ⟨⟨within.text, [], rfl, ?_⟩, (skipIgnored_text b).trans within.text, gap, ignored, ?_⟩
  · rw [List.append_nil]
    exact ahead
  · rw [List.append_assoc, skipIgnored_ahead, ← split]
    exact ahead

/-- A token that stands behind ignored characters stands in front of them, too. -/
theorem Passes.of_skipIgnored (passes : a.skipIgnored.Passes token b) : a.Passes token b := by
  obtain ⟨gap, ignored, ahead⟩ := passes.ahead
  rw [skipIgnored_ahead, skip_skip] at ahead
  exact ⟨passes.text.trans (skipIgnored_text a), gap, ignored, ahead⟩

/-- Where only ignored characters were passed, a token that comes next came next before. -/
theorem Passes.trans_nil (blank : a.Passes [] b) (passes : b.Passes token c) :
    a.Passes token c := by
  obtain ⟨gap, ignored, ahead⟩ := passes.ahead
  exact ⟨passes.text.trans blank.text, gap, ignored, blank.writes_nil.of_nil.trans ahead⟩

end Cursor

/-- A declared name that is taken stands at the position. -/
theorem passes_of_takeFirst? {α : Type} {c : Cursor} {fits : Cursor → Bool}
    {entries : List (String × α)} {taken : Taken α c}
    (found : takeFirst? c fits entries = some taken) :
    (taken.name, taken.declaration) ∈ entries ∧ taken.name.toList ≠ [] ∧
      c.Passes taken.name.toList taken.cursor := by
  induction entries with
  | nil => cases found
  | cons entry rest ih =>
    obtain ⟨name, declaration⟩ := entry
    have later := fun found => (ih found).imp_left (List.mem_cons_of_mem (name, declaration))
    rw [takeFirst?] at found
    split at found
    · rename_i nonempty
      split at found
      · exact later found
      · rename_i cursor accepted
        split at found
        · cases found
          exact ⟨List.mem_cons_self, nonempty, Cursor.passes_of_accept? accepted⟩
        · exact later found
    · exact later found

/-! ## Occurrences -/

/-- An operator or a function whose name stands at a place of a text. -/
structure Occurrence where
  place : Nat
  name : String
  callable : Operator ⊕ Function

namespace Occurrence

/-- The place behind the name. -/
def ends (o : Occurrence) : Nat := o.place + o.name.toList.length

/-- Two names stand side by side and share no character. -/
def Apart (o other : Occurrence) : Prop := o.ends ≤ other.place ∨ other.ends ≤ o.place

/-- The name and what it was declared as, wherever it stands. -/
def entry (o : Occurrence) : String × (Operator ⊕ Function) := (o.name, o.callable)

end Occurrence

/-- The occurrence that a call runs, by the place of its name. -/
def Call.occurrence (place : Nat) : Call → Occurrence
  | .operator name op _ _ => ⟨place, name, .inl op⟩
  | .function name f _ => ⟨place, name, .inr f⟩

def Exchange.occurrence (made : Exchange) : Occurrence := made.request.occurrence made.site.place

mutual

/-- The operators and the calls of a tree: operands from the left before their operator,
    arguments before their call. -/
def Tree.callables : Tree → List (String × (Operator ⊕ Function))
  | .chain _ first rest => first.callables ++ rest.callables
  | .group inner => inner.callables
  | .call _ name f arguments => arguments.callables ++ [(name, .inr f)]
  | .constant _ _ _ => []
  | .numeral _ _ => []
  | .signed _ inner => inner.callables

def Links.callables : Links → List (String × (Operator ⊕ Function))
  | .nil => []
  | .cons name op right rest => right.callables ++ (name, .inl op) :: rest.callables

def Arguments.callables : Arguments → List (String × (Operator ⊕ Function))
  | .nil => []
  | .cons first rest => first.callables ++ rest.callables

end

mutual

/-- Whether a tree stands between two positions, with these occurrences of its operators
    and calls. -/
def Tree.Stands : Tree → Cursor → Cursor → List Occurrence → Prop
  | .chain _ first rest, a, c, found =>
    ∃ b left right, found = left ++ right ∧ first.Stands a b left ∧ rest.Stands b c right
  | .group inner, a, d, found =>
    ∃ b c, a.Passes ['('] b ∧ inner.Stands b c found ∧ c.Passes [')'] d
  | .call sign name f arguments, a, e, found =>
    ∃ b c d inside, found = inside ++ [⟨b.place, name, .inr f⟩] ∧ a.Passes sign.toList b ∧
      b.Passes name.toList c ∧ c.Passes ['('] d ∧ arguments.Stands d e inside
  | .constant sign name _, a, c, found =>
    found = [] ∧ ∃ b, a.Passes sign.toList b ∧ b.Passes name.toList c
  | .numeral sign digits, a, c, found =>
    found = [] ∧ ∃ b, a.Passes sign.toList b ∧ b.Passes digits c
  | .signed sign inner, a, c, found => ∃ b, a.Passes [sign] b ∧ inner.Stands b c found

/-- Whether operators and their right operands stand between two positions. -/
def Links.Stands : Links → Cursor → Cursor → List Occurrence → Prop
  | .nil, a, b, found => b = a ∧ found = []
  | .cons name op right rest, a, d, found =>
    ∃ b c operand others, found = operand ++ ⟨a.place, name, .inl op⟩ :: others ∧
      a.Passes name.toList b ∧ right.Stands b c operand ∧ rest.Stands c d others

/-- Whether arguments stand between two positions, up to behind their closing parenthesis. -/
def Arguments.Stands : Arguments → Cursor → Cursor → List Occurrence → Prop
  | .nil, a, b, found => found = [] ∧ a.Passes [')'] b
  | .cons first rest, a, c, found =>
    ∃ b left right, found = left ++ right ∧ first.Stands a b left ∧ rest.Follow b c right

/-- Whether further arguments stand behind one, up to behind the closing parenthesis. -/
def Arguments.Follow : Arguments → Cursor → Cursor → List Occurrence → Prop
  | .nil, a, b, found => found = [] ∧ a.Passes [')'] b
  | .cons first rest, a, d, found =>
    ∃ b c left right, found = left ++ right ∧ a.Passes [','] b ∧ first.Stands b c left ∧
      rest.Follow c d right

end

/-! ## Tokens and places -/

/-- Between two positions of a text stand tokens, and some occurrences have their names there. -/
structure Placed (a c : Cursor) (tokens : List (List Char)) (found : List Occurrence) : Prop where
  text : c.text = a.text
  writes : Writes tokens a.ahead c.ahead
  inside : ∀ o ∈ found, a.location ≤ o.place ∧ o.ends ≤ c.location

namespace Placed

variable {a b c : Cursor} {tokens others : List (List Char)} {found more : List Occurrence}

theorem within (placed : Placed a c tokens found) : a.Within c :=
  ⟨placed.text, placed.writes.length_le⟩

theorem refl (c : Cursor) : Placed c c [] [] := ⟨rfl, ⟨[], rfl, .nil rfl⟩, nofun⟩

theorem append (first : Placed a b tokens found) (second : Placed b c others more) :
    Placed a c (tokens ++ others) (found ++ more) := by
  have before := first.within.location_le
  have behind := second.within.location_le
  refine ⟨second.text.trans first.text, first.writes.append second.writes, fun o listed => ?_⟩
  rcases List.mem_append.1 listed with listed | listed
  · exact (first.inside o listed).imp_right behind.trans'
  · exact (second.inside o listed).imp_left before.trans

theorem of_mem (placed : Placed a c tokens found) (fewer : ∀ o ∈ more, o ∈ found) :
    Placed a c tokens more :=
  ⟨placed.text, placed.writes, fun o listed => placed.inside o (fewer o listed)⟩

theorem token {token : List Char} (passes : a.Passes token c) : Placed a c [token] [] :=
  ⟨passes.text, passes.writes, nofun⟩

theorem sign {sign : Option Char} (passes : a.Passes sign.toList c) :
    Placed a c (sign.toList.map ([·])) [] := by
  cases sign with
  | none => exact ⟨passes.text, passes.writes_nil, nofun⟩
  | some sign => exact token passes

/-- A name that stands there is an occurrence of what it was declared as. -/
theorem named {name : String} (passes : a.Passes name.toList c) (callable : Operator ⊕ Function) :
    Placed a c [name.toList] [⟨a.place, name, callable⟩] := by
  refine ⟨passes.text, passes.writes, fun o listed => ?_⟩
  obtain rfl := List.mem_singleton.1 listed
  exact ⟨a.location_le_place, passes.place_add_le⟩

end Placed

mutual

theorem Tree.Stands.placed (t : Tree) {a c : Cursor} {found : List Occurrence}
    (stands : t.Stands a c found) : Placed a c t.tokens found := by
  match t with
  | .chain tier first rest =>
    obtain ⟨b, left, right, rfl, firstStands, restStands⟩ := stands
    rw [Tree.tokens]
    exact (Tree.Stands.placed first firstStands).append (Links.Stands.placed rest restStands)
  | .group inner =>
    obtain ⟨b, d, opened, innerStands, closed⟩ := stands
    rw [Tree.tokens]
    have inside := (Tree.Stands.placed inner innerStands).append (.token closed)
    exact ((Placed.token opened).append inside).of_mem fun o listed => by simpa using listed
  | .call sign name f arguments =>
    obtain ⟨b, d, e, inside, rfl, signed, named, opened, argumentsStand⟩ := stands
    rw [Tree.tokens]
    have called := (Placed.named named (.inr f)).append
      ((Placed.token opened).append (Arguments.Stands.placed arguments argumentsStand))
    exact ((Placed.sign signed).append called).of_mem fun o listed => by
      simpa [or_comm] using listed
  | .constant sign name value =>
    obtain ⟨rfl, b, signed, named⟩ := stands
    rw [Tree.tokens]
    exact (Placed.sign signed).append (.token named)
  | .numeral sign digits =>
    obtain ⟨rfl, b, signed, passes⟩ := stands
    rw [Tree.tokens]
    exact (Placed.sign signed).append (.token passes)
  | .signed sign inner =>
    obtain ⟨b, signed, innerStands⟩ := stands
    rw [Tree.tokens]
    exact (Placed.token signed).append (Tree.Stands.placed inner innerStands)

theorem Links.Stands.placed (links : Links) {a c : Cursor} {found : List Occurrence}
    (stands : links.Stands a c found) : Placed a c links.tokens found := by
  match links with
  | .nil =>
    obtain ⟨rfl, rfl⟩ := stands
    exact .refl _
  | .cons name op right rest =>
    obtain ⟨b, d, operand, others, rfl, named, rightStands, restStands⟩ := stands
    rw [Links.tokens]
    have behind := (Tree.Stands.placed right rightStands).append (Links.Stands.placed rest restStands)
    exact ((Placed.named named (.inl op)).append behind).of_mem fun o listed => by
      simpa [or_left_comm] using listed

theorem Arguments.Stands.placed (arguments : Arguments) {a c : Cursor} {found : List Occurrence}
    (stands : arguments.Stands a c found) : Placed a c (arguments.tokens ++ [[')']]) found := by
  match arguments with
  | .nil =>
    obtain ⟨rfl, closed⟩ := stands
    exact .token closed
  | .cons first rest =>
    obtain ⟨b, left, right, rfl, firstStands, restFollow⟩ := stands
    rw [Arguments.tokens_cons, List.append_assoc]
    exact (Tree.Stands.placed first firstStands).append (Arguments.Follow.placed rest restFollow)

theorem Arguments.Follow.placed (others : Arguments) {a c : Cursor} {found : List Occurrence}
    (follow : others.Follow a c found) : Placed a c (others.further ++ [[')']]) found := by
  match others with
  | .nil =>
    obtain ⟨rfl, closed⟩ := follow
    exact .token closed
  | .cons first rest =>
    obtain ⟨b, d, left, right, rfl, comma, firstStands, restFollow⟩ := follow
    rw [Arguments.further, Arguments.tokens_cons, List.cons_append, List.append_assoc]
    exact (Placed.token comma).append
      ((Tree.Stands.placed first firstStands).append (Arguments.Follow.placed rest restFollow))

end

mutual

/-- A tree has one occurrence for each operator and each call, in the order of its value. -/
theorem Tree.Stands.entries (t : Tree) {a c : Cursor} {found : List Occurrence}
    (stands : t.Stands a c found) : found.map Occurrence.entry = t.callables := by
  match t with
  | .chain tier first rest =>
    obtain ⟨b, left, right, rfl, firstStands, restStands⟩ := stands
    rw [Tree.callables, List.map_append, Tree.Stands.entries first firstStands,
      Links.Stands.entries rest restStands]
  | .group inner =>
    obtain ⟨b, d, -, innerStands, -⟩ := stands
    rw [Tree.callables, Tree.Stands.entries inner innerStands]
  | .call sign name f arguments =>
    obtain ⟨b, d, e, inside, rfl, -, -, -, argumentsStand⟩ := stands
    rw [Tree.callables, List.map_append, Arguments.Stands.entries arguments argumentsStand]
    rfl
  | .constant sign name value =>
    obtain ⟨rfl, -⟩ := stands
    rfl
  | .numeral sign digits =>
    obtain ⟨rfl, -⟩ := stands
    rfl
  | .signed sign inner =>
    obtain ⟨b, -, innerStands⟩ := stands
    rw [Tree.callables, Tree.Stands.entries inner innerStands]

theorem Links.Stands.entries (links : Links) {a c : Cursor} {found : List Occurrence}
    (stands : links.Stands a c found) : found.map Occurrence.entry = links.callables := by
  match links with
  | .nil =>
    obtain ⟨-, rfl⟩ := stands
    rfl
  | .cons name op right rest =>
    obtain ⟨b, d, operand, others, rfl, -, rightStands, restStands⟩ := stands
    rw [Links.callables, List.map_append, List.map_cons, Tree.Stands.entries right rightStands,
      Links.Stands.entries rest restStands]
    rfl

theorem Arguments.Stands.entries (arguments : Arguments) {a c : Cursor} {found : List Occurrence}
    (stands : arguments.Stands a c found) : found.map Occurrence.entry = arguments.callables := by
  match arguments with
  | .nil =>
    obtain ⟨rfl, -⟩ := stands
    rfl
  | .cons first rest =>
    obtain ⟨b, left, right, rfl, firstStands, restFollow⟩ := stands
    rw [Arguments.callables, List.map_append, Tree.Stands.entries first firstStands,
      Arguments.Follow.entries rest restFollow]

theorem Arguments.Follow.entries (others : Arguments) {a c : Cursor} {found : List Occurrence}
    (follow : others.Follow a c found) : found.map Occurrence.entry = others.callables := by
  match others with
  | .nil =>
    obtain ⟨rfl, -⟩ := follow
    rfl
  | .cons first rest =>
    obtain ⟨b, d, left, right, rfl, -, firstStands, restFollow⟩ := follow
    rw [Arguments.callables, List.map_append, Tree.Stands.entries first firstStands,
      Arguments.Follow.entries rest restFollow]

end

end Calculator
