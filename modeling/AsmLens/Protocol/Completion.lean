import AsmLens.Protocol.Shape.Item

/-!
Completion items. An item has a label and whatever else is known about it; what an editor sends
along with an item that it wants resolved is sent back with it.
-/

namespace AsmLens.Protocol

/-- A proposal to complete a word. -/
structure CompletionItem where
  label : String
  /-- The other fields that have a value. -/
  details : List (String × Json) := []

namespace CompletionItem

/-- Reads an item. Fields that items do not have are passed over, and so are fields without a
value. -/
def read? (uris : UriReader) (value : Json) : Option CompletionItem := do
  match ← Shape.completion.read uris value with
  | .object fields => do
      let label ← (← fields.lookup "label").string?
      return { label, details := fields.filter fun (name, _) => name ≠ "label" }
  | _ => none

/-- Reads an item. No field of an item is a URI. -/
def ofJson? (value : Json) : Option CompletionItem := read? .plain value

def toJson (item : CompletionItem) : Json :=
  .object (("label", .string item.label) :: item.details)

end CompletionItem

/-- The number of the kind that words of the language are proposed as. -/
def keywordKind : Nat := 14

/-- What is proposed, at every place of every document. -/
def completions : List CompletionItem :=
  [{ label := "mov"
     details := [("kind", .ofNat keywordKind), ("detail", .string "move data between operands")] }]

end AsmLens.Protocol
