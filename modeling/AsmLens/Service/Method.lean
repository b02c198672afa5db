import AsmLens.Service.Elsewhere
import AsmLens.Service.Params

/-!
The methods of an open session. Beside the methods that the session answers there are some that an
editor may know from other servers. They are told apart from unknown ones: of the requests among
them the parameters are looked at first, and the notifications among them are not to be requests.
-/

namespace AsmLens

/-- What a method is, and how its parameters are read. -/
inductive Method where
  | request (read : UriReader → Json → Option Request)
  | notification (read : UriReader → Json → Option Request)
  /-- A request that other servers answer; its parameters are checked, and then it is turned
  away. -/
  | requestElsewhere (shape : Shape)
  /-- A notification that other servers heed. -/
  | notificationElsewhere

namespace Method

/-- A method of other servers. -/
def elsewhere? (name : String) : Option Method :=
  match requestsElsewhere.lookup name with
  | some shape => some (.requestElsewhere shape)
  | none => if notificationsElsewhere.contains name then some .notificationElsewhere else none

/-- The methods of an open session, by their names. -/
def find? (name : String) : Option Method :=
  match name with
  | "initialized" => some (.notification Params.started?)
  | "textDocument/didOpen" => some (.notification Params.openDocument?)
  | "textDocument/didChange" => some (.notification Params.changeDocument?)
  | "textDocument/didClose" => some (.notification Params.closeDocument?)
  | "textDocument/semanticTokens/full" => some (.request Params.tokens?)
  | "textDocument/semanticTokens/full/delta" => some (.request Params.tokenChanges?)
  | "textDocument/diagnostic" => some (.request Params.diagnostics?)
  | "textDocument/completion" => some (.request Params.completion?)
  | "completionItem/resolve" => some (.request Params.resolve?)
  | _ => elsewhere? name

end Method

end AsmLens
