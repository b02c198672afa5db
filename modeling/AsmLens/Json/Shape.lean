import AsmLens.Json
import AsmLens.Json.Uri
import AsmLens.Word

/-!
The shapes of JSON values. A `Shape` tells which values are well-formed for a purpose, and
`Shape.read` brings a well-formed value into one spelling: fields that the shape does not name and
optional fields that are null are left out, a record that is given as the list of its fields
becomes an object, and URIs are spelled normally.
-/

namespace AsmLens

/-- Whether a field of a record has to be there. -/
inductive Presence where
  | required
  /-- The field may be missing, and null stands for a missing value. A list gives it a place. -/
  | optional
  /-- The field may be missing, also at the end of a list; null is a value like another. -/
  | defaulted
  deriving DecidableEq, Repr

/-- The shape of a value. -/
inductive Shape where
  | any
  | null
  | flag
  | text
  /-- The name of a document. -/
  | uri
  /-- A number, with or without a point. -/
  | number
  /-- An integer between two bounds. -/
  | integer (least greatest : Int)
  /-- One of some names. An object that holds only null spells the name of its field. -/
  | choice (names : List String)
  | list (item : Shape)
  | pair (first second : Shape)
  /-- Named fields, as an object or as the list of their values. -/
  | record (fields : List (String × Presence × Shape))
  /-- Named fields, as an object only. -/
  | object (fields : List (String × Presence × Shape))
  /-- Named fields, as an object only, and any others that have one shape. -/
  | openObject (fields : List (String × Presence × Shape)) (others : Shape)
  /-- An object whose fields are named by URIs and have one shape. -/
  | byUri (value : Shape)
  /-- A record that tells the case it belongs to in a field of its own, before the others in a list.
  A case is told by its name, or by its number among the cases. -/
  | tagged (tag : String) (cases : List (String × Shape))
  /-- The first of two shapes that the value has. -/
  | either (first second : Shape)

/-- Reads the value of a field, which may be missing, by the shape that it should have. -/
def Presence.read (presence : Presence) (found : Option Json) (shape : Json → Option Json) :
    Option (Option Json) :=
  match presence, found with
  | required, none => none
  | optional, none => some none
  | defaulted, none => some none
  | optional, some .null => some none
  | _, some value => (shape value).map some

namespace Shape

/-- The name that a value spells, if it is one of those. -/
def chosen? (names : List String) : Json → Option String
  | .string name => if names.contains name then some name else none
  | .object [(name, .null)] => if names.contains name then some name else none
  | _ => none

/-- The name of the case that a value tells, of cases in that order. -/
def caseName? (names : List String) : Json → Option String
  | .string name => some name
  | .integer index => if 0 ≤ index then names[index.toNat]? else none
  | _ => none

/-- A field in front of others, unless it is missing. -/
def withField (name : String) (value : Option Json) (others : List (String × Json)) :
    List (String × Json) :=
  match value with
  | some value => (name, value) :: others
  | none => others

section

variable (uris : UriReader)

mutual

/-- The standard spelling of a value, if it has the shape. -/
def read : Shape → Json → Option Json
  | any, value => some value
  | null, .null => some .null
  | flag, .bool value => some (.bool value)
  | text, .string value => some (.string value)
  | uri, .string spelled => (uris.normal? spelled).map .string
  | number, .integer value => some (.integer value)
  | number, .real value => some (.real value)
  | integer least greatest, value => (value.integerIn? least greatest).map .integer
  | choice names, value => (chosen? names value).map .string
  | list item, .array values => (values.mapM fun value => read item value).map .array
  | pair first second, .array [a, b] => do return .array [← read first a, ← read second b]
  | record fields, .object given => (readFields fields given).map .object
  | record fields, .array given => (readItems fields given).map .object
  | object fields, .object given => (readFields fields given).map .object
  | openObject fields others, .object given => do
      let known ← readFields fields given
      let unknown := given.filter fun (name, _) => !fields.any fun (known, _) => known = name
      let more ← unknown.mapM fun (name, value) => (read others value).map (name, ·)
      return .object (known ++ more)
  | byUri shape, .object given =>
      (given.mapM fun (name, value) =>
        (uris.normal? name).bind fun normal => (read shape value).map (normal, ·)).map .object
  | tagged tag cases, .object given => do
      let name ← caseName? (cases.map (·.1)) (← given.lookup tag)
      readCase cases name (.object (given.filter fun (field, _) => field ≠ tag))
  | tagged _ cases, .array (told :: given) => do
      let name ← caseName? (cases.map (·.1)) told
      readCase cases name (.array given)
  | either first second, value => (read first value).or (read second value)
  | _, _ => none

/-- The fields of a record from the fields of an object. -/
def readFields : List (String × Presence × Shape) → List (String × Json) →
    Option (List (String × Json))
  | [], _ => some []
  | (name, presence, shape) :: more, given => do
      let value ← presence.read (given.lookup name) fun value => read shape value
      return withField name value (← readFields more given)

/-- The fields of a record from the values of a list, which has no others. -/
def readItems : List (String × Presence × Shape) → List Json → Option (List (String × Json))
  | [], [] => some []
  | [], _ :: _ => none
  | (_, .defaulted, _) :: more, [] => readItems more []
  | _ :: _, [] => none
  | (name, presence, shape) :: more, item :: items => do
      let value ← presence.read (some item) fun value => read shape value
      return withField name value (← readItems more items)

/-- A record by the shape of the case of that name. -/
def readCase : List (String × Shape) → String → Json → Option Json
  | [], _, _ => none
  | (name, shape) :: more, given, value =>
      if name = given then read shape value else readCase more given value

end

/-- Whether a value has the shape. -/
def accepts (shape : Shape) (value : Json) : Bool := (read uris shape value).isSome

end

/-- A field that has to be there. -/
def must (name : String) (shape : Shape) : String × Presence × Shape := (name, .required, shape)

/-- A field that may be missing or null. -/
def may (name : String) (shape : Shape) : String × Presence × Shape := (name, .optional, shape)

/-- Flags that may be missing or null. -/
def mayFlags (names : List String) : List (String × Presence × Shape) := names.map (may · .flag)

/-- An object of which each field has one shape. -/
def dictionary (value : Shape) : Shape := .openObject [] value

/-- An integer that an unsigned word holds. -/
def word : Shape := .integer 0 Word.limit

/-- An integer that a signed word holds. -/
def signedWord : Shape := .integer (-2147483648) 2147483647

end Shape

end AsmLens
