import AsmLens.Decimal.Layout
import AsmLens.Text.Quoted

/-!
JSON values. An editor sends its settings and its requests as such values, and gets its answers as
such values; nothing here reads or writes their text.
-/

namespace AsmLens

/-- A JSON value. A number written as an integer is kept apart from one written with a point. -/
inductive Json where
  | null
  | bool (value : Bool)
  | integer (value : Int)
  | real (value : Float)
  | string (value : String)
  | array (items : List Json)
  | object (fields : List (String × Json))
  deriving Inhabited

namespace Json

/-- The value of a field, if there is such a field. -/
def field? : Json → String → Option Json
  | object fields, name => fields.lookup name
  | _, _ => none

def string? : Json → Option String
  | string value => some value
  | _ => none

def array? : Json → Option (List Json)
  | array items => some items
  | _ => none

/-- An integer between two bounds. -/
def integerIn? (least greatest : Int) : Json → Option Int
  | integer value => if least ≤ value && value ≤ greatest then some value else none
  | _ => none

/-- An object without the fields that have no value. -/
def ofOptions (fields : List (String × Option Json)) : Json :=
  object (fields.filterMap fun (name, value) => value.map (name, ·))

def ofNat (n : Nat) : Json := integer n

/-- Numbers with a point are written out while the point lies less than five places before their
digits or at most sixteen places into them; other exponents have a sign. -/
def realLayout : Decimal.Layout := ⟨-5, 16, true⟩

/-- How a value is named when it is not of the kind that was expected. -/
def describe : Json → String
  | null => "null"
  | bool value => "boolean `" ++ toString value ++ "`"
  | integer value => "integer `" ++ toString value ++ "`"
  | real value => "floating point `" ++ realLayout.render value ++ "`"
  | string value => "string " ++ Text.quoted value
  | array _ => "sequence"
  | object _ => "map"

end Json

end AsmLens
