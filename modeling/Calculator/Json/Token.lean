/-!
The tokens of a JSON text. The text is read character by character; a word or a
number ends where a character follows that neither can hold. A string may hold
any character but the control characters; an escape may name half of a surrogate
pair, and a string that keeps such a half alone has no text.
-/
namespace Calculator.Json

/-- A token. -/
inductive Token where
  | openObject
  | closeObject
  | openArray
  | closeArray
  | colon
  | comma
  | null
  | bool (value : Bool)
  | number
  /-- No text where half of a surrogate pair stands alone. -/
  | string (text : Option String)
deriving DecidableEq

/-- A part of a string. -/
inductive Piece where
  | char (c : Char)
  /-- A unit of 16 bits that was written as an escape. -/
  | unit (value : Nat)
deriving DecidableEq

/-- Whether a unit is the first half of a surrogate pair. -/
def isHighSurrogate (unit : Nat) : Bool := 0xD800 ≤ unit && unit < 0xDC00

/-- Whether a unit is the second half of a surrogate pair. -/
def isLowSurrogate (unit : Nat) : Bool := 0xDC00 ≤ unit && unit < 0xE000

/-- The characters that parts of a string spell. -/
def decode : List Piece → Option (List Char)
  | [] => some []
  | .char c :: rest => (decode rest).map (c :: ·)
  | .unit high :: .unit low :: rest =>
    if isHighSurrogate high then
      if isLowSurrogate low then
        let c := Char.ofNat (0x10000 + (high - 0xD800) * 0x400 + (low - 0xDC00))
        (decode rest).map (c :: ·)
      else none
    else if isLowSurrogate high then none
    else (decode (.unit low :: rest)).map (Char.ofNat high :: ·)
  | .unit unit :: rest =>
    if isHighSurrogate unit || isLowSurrogate unit then none
    else (decode rest).map (Char.ofNat unit :: ·)

/-- The digits at the start, and what follows them. -/
def splitDigits (chars : List Char) : List Char × List Char :=
  (chars.takeWhile Char.isDigit, chars.dropWhile Char.isDigit)

/-- Whether characters are the exponent of a number, or none. -/
def isExponent : List Char → Bool
  | [] => true
  | mark :: rest =>
    let digits := match rest with
      | '+' :: digits => digits
      | '-' :: digits => digits
      | digits => digits
    (mark = 'e' || mark = 'E') && !digits.isEmpty && digits.all Char.isDigit

/-- Whether characters are the fraction and the exponent of a number. -/
def isFraction : List Char → Bool
  | '.' :: rest =>
    let (digits, behind) := splitDigits rest
    !digits.isEmpty && isExponent behind
  | chars => isExponent chars

/-- Whether characters are a number. -/
def isNumber (chars : List Char) : Bool :=
  let unsigned := match chars with
    | '-' :: rest => rest
    | chars => chars
  match splitDigits unsigned with
  | ([], _) => false
  | (['0'], behind) => isFraction behind
  | ('0' :: _ :: _, _) => false
  | (_, behind) => isFraction behind

/-- Where in a text the reader is. -/
inductive Mode where
  | between
  /-- In a word, with its letters, the last first. -/
  | word (letters : List Char)
  /-- In a number, with its characters, the last first. -/
  | number (chars : List Char)
  /-- In a string, with its parts, the last first. -/
  | string (pieces : List Piece)
  /-- Behind a backslash. -/
  | escape (pieces : List Piece)
  /-- In an escape by number, of which `count` digits are still to come. -/
  | hex (pieces : List Piece) (value count : Nat)

/-- What has been read: the tokens, the last first, and where the reader is. -/
structure Lexer where
  tokens : List Token
  mode : Mode

/-- Whether a character may stand in a number. -/
def isNumberChar (c : Char) : Bool :=
  c.isDigit || c = '+' || c = '-' || c = '.' || c = 'e' || c = 'E'

/-- The token that a word is. -/
def wordToken? (letters : List Char) : Option Token :=
  if letters = ['t', 'r', 'u', 'e'] then some (.bool true)
  else if letters = ['f', 'a', 'l', 's', 'e'] then some (.bool false)
  else if letters = ['n', 'u', 'l', 'l'] then some .null
  else none

/-- The token that a single character is. -/
def mark? (c : Char) : Option Token :=
  if c = '\x7b' then some .openObject
  else if c = '\x7d' then some .closeObject
  else if c = '[' then some .openArray
  else if c = ']' then some .closeArray
  else if c = ':' then some .colon
  else if c = ',' then some .comma
  else none

/-- The character that a backslash and a letter stand for. -/
def escaped? (c : Char) : Option Char :=
  if c = '"' || c = '\\' || c = '/' then some c
  else if c = 'b' then some '\x08'
  else if c = 'f' then some '\x0c'
  else if c = 'n' then some '\n'
  else if c = 'r' then some '\r'
  else if c = 't' then some '\t'
  else none

/-- The value of a hexadecimal digit. -/
def hexDigit? (c : Char) : Option Nat :=
  if '0' ≤ c && c ≤ '9' then some (c.toNat - 48)
  else if 'a' ≤ c && c ≤ 'f' then some (c.toNat - 87)
  else if 'A' ≤ c && c ≤ 'F' then some (c.toNat - 55)
  else none

/-- Whether a character may stand between tokens. -/
def isBlank (c : Char) : Bool := c = ' ' || c = '\n' || c = '\t' || c = '\r'

namespace Lexer

/-- Reads a character between tokens. -/
def begin? (tokens : List Token) (c : Char) : Option Lexer :=
  if isBlank c then some ⟨tokens, .between⟩
  else if c = '"' then some ⟨tokens, .string []⟩
  else if c = '-' || c.isDigit then some ⟨tokens, .number [c]⟩
  else if 'a' ≤ c && c ≤ 'z' then some ⟨tokens, .word [c]⟩
  else (mark? c).map fun token => ⟨token :: tokens, .between⟩

def step? (l : Lexer) (c : Char) : Option Lexer :=
  match l.mode with
  | .between => begin? l.tokens c
  | .word letters =>
    if 'a' ≤ c && c ≤ 'z' then some ⟨l.tokens, .word (c :: letters)⟩
    else (wordToken? letters.reverse).bind fun token => begin? (token :: l.tokens) c
  | .number chars =>
    if isNumberChar c then some ⟨l.tokens, .number (c :: chars)⟩
    else if isNumber chars.reverse then begin? (.number :: l.tokens) c
    else none
  | .string pieces =>
    if c = '"' then
      some ⟨.string ((decode pieces.reverse).map String.ofList) :: l.tokens, .between⟩
    else if c = '\\' then some ⟨l.tokens, .escape pieces⟩
    else if c.toNat < 0x20 then none
    else some ⟨l.tokens, .string (.char c :: pieces)⟩
  | .escape pieces =>
    if c = 'u' then some ⟨l.tokens, .hex pieces 0 4⟩
    else (escaped? c).map fun meant => ⟨l.tokens, .string (.char meant :: pieces)⟩
  | .hex pieces value count =>
    (hexDigit? c).map fun digit =>
      let value := 16 * value + digit
      if count ≤ 1 then ⟨l.tokens, .string (.unit value :: pieces)⟩
      else ⟨l.tokens, .hex pieces value (count - 1)⟩

/-- The tokens at the end of a text. -/
def finish? (l : Lexer) : Option (List Token) :=
  match l.mode with
  | .between => some l.tokens.reverse
  | .word letters => (wordToken? letters.reverse).map fun token => (token :: l.tokens).reverse
  | .number chars => if isNumber chars.reverse then some (.number :: l.tokens).reverse else none
  | .string _ => none
  | .escape _ => none
  | .hex _ _ _ => none

end Lexer

def tokens? (text : String) : Option (List Token) :=
  (text.toList.foldlM Lexer.step? ⟨[], .between⟩).bind Lexer.finish?

end Calculator.Json
