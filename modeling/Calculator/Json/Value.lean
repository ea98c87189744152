import Calculator.Json.Token

/-!
JSON values, read from tokens with a stack of the arrays and objects that are
still open. Nothing bounds how deep they nest.
-/
namespace Calculator.Json

/-- A value. Numbers are told apart from nothing else here. -/
inductive Value where
  | null
  | bool (value : Bool)
  | number
  | string (text : Option String)
  | array (values : List Value)
  | object (fields : List (Option String × Value))

/-- An array or object that is still open, its members last first. -/
inductive Frame where
  | array (values : List Value)
  | object (fields : List (Option String × Value))
  /-- An object behind the colon of a field. -/
  | field (fields : List (Option String × Value)) (key : Option String)

/-- What has to come next. -/
inductive Wanted where
  | value
  /-- A value, or the end of an array without values. -/
  | valueOrClose
  | key
  /-- A key, or the end of an object without fields. -/
  | keyOrClose
  | colon (key : Option String)
  /-- A comma, or the end of the innermost array or object. -/
  | commaOrClose
  /-- Nothing: the value is complete. -/
  | finished (value : Value)

/-- The open arrays and objects, the innermost first, and what has to come next. -/
structure Builder where
  stack : List Frame
  wanted : Wanted

namespace Builder

/-- Puts a complete value where it belongs. -/
def complete (stack : List Frame) (value : Value) : Builder :=
  match stack with
  | .array values :: outer => ⟨.array (value :: values) :: outer, .commaOrClose⟩
  | .field fields key :: outer => ⟨.object ((key, value) :: fields) :: outer, .commaOrClose⟩
  | stack => ⟨stack, .finished value⟩

/-- Reads the first token of a value. -/
def value? (stack : List Frame) : Token → Option Builder
  | .null => some (complete stack .null)
  | .bool value => some (complete stack (.bool value))
  | .number => some (complete stack .number)
  | .string text => some (complete stack (.string text))
  | .openArray => some ⟨.array [] :: stack, .valueOrClose⟩
  | .openObject => some ⟨.object [] :: stack, .keyOrClose⟩
  | _ => none

/-- Reads the end of the innermost array or object. -/
def close? (stack : List Frame) (token : Token) : Option Builder :=
  match stack, token with
  | .array values :: outer, .closeArray => some (complete outer (.array values.reverse))
  | .object fields :: outer, .closeObject => some (complete outer (.object fields.reverse))
  | _, _ => none

def step? (b : Builder) (token : Token) : Option Builder :=
  match b.wanted with
  | .value => value? b.stack token
  | .valueOrClose =>
    match token with
    | .closeArray => close? b.stack token
    | token => value? b.stack token
  | .key =>
    match token with
    | .string text => some ⟨b.stack, .colon text⟩
    | _ => none
  | .keyOrClose =>
    match token with
    | .string text => some ⟨b.stack, .colon text⟩
    | token => close? b.stack token
  | .colon key =>
    match b.stack, token with
    | .object fields :: outer, .colon => some ⟨.field fields key :: outer, .value⟩
    | _, _ => none
  | .commaOrClose =>
    match b.stack, token with
    | .array _ :: _, .comma => some ⟨b.stack, .value⟩
    | .object _ :: _, .comma => some ⟨b.stack, .key⟩
    | stack, token => close? stack token
  | .finished _ => none

/-- The value at the end of a text. -/
def finish? (b : Builder) : Option Value :=
  match b.wanted with
  | .finished value => some value
  | _ => none

end Builder

def Value.read? (text : String) : Option Value :=
  (tokens? text).bind fun tokens =>
    (tokens.foldlM Builder.step? ⟨[], .value⟩).bind Builder.finish?

end Calculator.Json
