import AsmLens.Session

/-!
Messages between an editor and the service, and what comes back for them. A message with an
identifier is a request and gets a reply under that identifier; one without is a notification and
gets none.
-/

namespace AsmLens

/-- What a reply is matched to its request by. -/
inductive RequestId where
  | number (value : Int)
  | text (value : String)
  | null
  deriving DecidableEq, Repr

/-- A message from the editor. -/
structure Message where
  /-- Given for requests only. -/
  id : Option RequestId := none
  method : String
  params : Option Json := none

/-- Why a request is turned away. -/
inductive Refusal where
  /-- The session is not open yet. -/
  | notStarted
  /-- The session is open already, or closed. -/
  | invalidRequest
  /-- There is no such method here. -/
  | unknownMethod
  /-- The parameters are not those of the method. -/
  | invalidParams
  deriving DecidableEq, Repr

/-- The number of an error in a reply. -/
def Refusal.code : Refusal → Int
  | notStarted => -32002
  | invalidRequest => -32600
  | unknownMethod => -32601
  | invalidParams => -32602

/-- What comes back for a message. -/
inductive Reply where
  | none
  | result (id : RequestId) (answer : Answer)
  | refused (id : RequestId) (reason : Refusal)
  /-- The service has ended and takes no messages. -/
  | ended

def RequestId.ofJson? : Json → Option RequestId
  | .integer value => some (.number value)
  | .string value => some (.text value)
  | .null => some .null
  | _ => Option.none

def RequestId.toJson : RequestId → Json
  | .number value => .integer value
  | .text value => .string value
  | .null => .null

/-- Reads a message. A message without a method has the empty one, which there is not. -/
def Message.ofJson? (value : Json) : Option Message :=
  let method := ((value.field? "method").bind Json.string?).getD ""
  let params := value.field? "params"
  match value.field? "id" with
  | Option.none => some { method, params }
  | some found => (RequestId.ofJson? found).map fun id => { id, method, params }

end AsmLens
