import AsmLens.Session.Request

/-!
A session with an editor. It holds the current text of every open document, the store of what the
editor has been given, and the settings. `Session.handle` answers one request after another; a
request for a document that is not open gets an empty answer and changes nothing.
-/

namespace AsmLens

open Protocol

/-- The state of a session. -/
structure Session where
  /-- The text of every open document. -/
  texts : Table String := .empty
  store : Store := {}
  config : Config := {}

/-- The session after a request, with the answer, the log, and what else the editor is sent. -/
structure SessionOutcome where
  session : Session
  answer : Answer := .nothing
  events : List Event := []
  notices : List Notice := []

namespace Session

/-- The text of an open document. -/
def text? (s : Session) (uri : String) : Except SessionError String :=
  match s.texts.find? uri with
  | some text => .ok text
  | none => .error (.documentNotFound uri)

/-- Takes over the settings that are sent, or the defaults where they are turned down. -/
def start (s : Session) (options : Option Json) : SessionOutcome :=
  match Config.ofOptions options with
  | .ok config =>
      { session := { s with config }, answer := .welcome (.ofConfig config) }
  | .error cause =>
      { session := { s with config := {} }, answer := .welcome (.ofConfig {})
        events := [.configFallback (.invalidConfig cause)] }

/-- Tells the editor that the session runs. -/
def started (s : Session) : SessionOutcome :=
  { session := s, notices := [⟨3, "Assembly language server initialized"⟩] }

/-- Opens a document, or opens it again. -/
def openDocument (s : Session) (uri text : String) : SessionOutcome :=
  { session := { s with store := s.store.begin uri, texts := s.texts.set uri text } }

/-- Replaces the text of a document by that of the last change. -/
def changeDocument (s : Session) (uri : String) (texts : List String) : SessionOutcome :=
  match texts.getLast? with
  | none => { session := s }
  | some text =>
      { session := { s with store := s.store.invalidate uri, texts := s.texts.set uri text } }

/-- Forgets a document. -/
def closeDocument (s : Session) (uri : String) : SessionOutcome :=
  { session := { s with store := (s.store.close uri).store, texts := s.texts.erase uri } }

/-- All tokens of a document. -/
def tokens (s : Session) (uri : String) : Checked SessionOutcome :=
  match s.text? uri with
  | .error error =>
      .ok { session := s, answer := .tokens {}, events := [.unknownDocument .tokens error] }
  | .ok text => do
      let found ← s.store.allTokens uri text
      let decoded ← TokenStream.decode found.value.data
      return { session := { s with store := found.store }
               answer := .tokens (.ofResult found.value)
               events := found.events ++ [.sendingTokens uri decoded] }

/-- What is answered to a request for changes. -/
def changeAnswer : TokensChange → Answer
  | .edits resultId edits => .update ⟨resultId, edits.map TokensEdit.ofEdit⟩
  | .all result => .tokens (.ofResult result)

/-- The change of a document's tokens from an earlier result. -/
def tokenChanges (s : Session) (uri previous : String) : Checked SessionOutcome :=
  match s.text? uri with
  | .error error => .ok { session := s, events := [.unknownDocument .tokenChanges error] }
  | .ok text => do
      let found ← s.store.tokensSince uri text previous
      return { session := { s with store := found.store }
               answer := changeAnswer found.value
               events := found.events }

/-- The diagnostics of a document; none where the settings say so. -/
def diagnostics (s : Session) (uri : String) : Checked SessionOutcome :=
  match s.text? uri with
  | .error error =>
      .ok { session := s, answer := .report [], events := [.unknownDocument .diagnostics error] }
  | .ok text =>
      if s.config.labelDiagnostics then do
        let found ← s.store.fetchDiagnostics uri text
        return { session := { s with store := found.store }
                 answer := .report (found.value.map (ReportItem.ofDiagnostic uri))
                 events := found.events }
      else .ok { session := s, answer := .report [] }

/-- Answers a request. -/
def handle (s : Session) : Request → Checked SessionOutcome
  | .start options => .ok (s.start options)
  | .started => .ok s.started
  | .stop => .ok { session := s }
  | .openDocument uri text => .ok (s.openDocument uri text)
  | .changeDocument uri texts => .ok (s.changeDocument uri texts)
  | .closeDocument uri => .ok (s.closeDocument uri)
  | .tokens uri => s.tokens uri
  | .tokenChanges uri previous => s.tokenChanges uri previous
  | .diagnostics uri => s.diagnostics uri
  | .completion => .ok { session := s, answer := .completions completions }
  | .resolve item => .ok { session := s, answer := .item item }

end Session

end AsmLens
