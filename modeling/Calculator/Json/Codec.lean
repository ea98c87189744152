import Calculator.Declaration.Basic
import Calculator.Evaluation.Settings
import Calculator.Json.Value

/-!
Settings, tiers and arities as JSON. Settings are an object or an array of their
choices in turn, and what is missing has its default; fields of other names are
passed over. A name is a string or the only field of an object, without a value.
-/
namespace Calculator

namespace Settings

def toJson (s : Settings) : String :=
  "\x7b\"allowNan\":" ++ toString s.allowNan ++ ",\"neverThrows\":" ++ toString s.neverThrows
    ++ "\x7d"

/-- Reads the fields of settings, given those read before. A field that is known
    may come once, and every key must have a text. -/
def ofFields? (allowNan neverThrows : Option Bool) :
    List (Option String × Json.Value) → Option Settings
  | [] => some ⟨allowNan.getD false, neverThrows.getD false⟩
  | (none, _) :: _ => none
  | (some key, value) :: rest =>
    if key = "allowNan" then
      match allowNan, value with
      | none, .bool choice => ofFields? (some choice) neverThrows rest
      | _, _ => none
    else if key = "neverThrows" then
      match neverThrows, value with
      | none, .bool choice => ofFields? allowNan (some choice) rest
      | _, _ => none
    else ofFields? allowNan neverThrows rest

/-- The settings that a JSON text spells. -/
def ofJson? (text : String) : Option Settings :=
  match Json.Value.read? text with
  | some (.object fields) => ofFields? none none fields
  | some (.array []) => some {}
  | some (.array [.bool allowNan]) => some { allowNan := allowNan }
  | some (.array [.bool allowNan, .bool neverThrows]) => some ⟨allowNan, neverThrows⟩
  | _ => none

end Settings

namespace Json

/-- A name as a JSON text. It must hold nothing that needs an escape. -/
def ofName (name : String) : String := "\"" ++ name ++ "\""

/-- The name that a JSON text spells. -/
def name? (text : String) : Option String :=
  match Value.read? text with
  | some (.string name) => name
  | some (.object [(name, .null)]) => name
  | _ => none

end Json

def Tier.toJson (t : Tier) : String := Json.ofName t.name

def Tier.ofJson? (text : String) : Option Tier := (Json.name? text).bind Tier.ofName?

def Arity.toJson (a : Arity) : String := Json.ofName a.name

def Arity.ofJson? (text : String) : Option Arity := (Json.name? text).bind Arity.ofName?

end Calculator
