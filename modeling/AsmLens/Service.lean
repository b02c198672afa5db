import AsmLens.Service.Message
import AsmLens.Service.Method

/-!
The message loop around a session. A session is opened by the first well-formed `initialize`, closed
to further requests by `shutdown`, and ended by `exit`; what arrives at the wrong time, is malformed
or is of no method of the session is turned away and reaches no session.
-/

namespace AsmLens

/-- How far a service has come. -/
inductive Phase where
  | waiting
  | running
  | closing
  | ended
  deriving DecidableEq, Repr

/-- A service and the session it serves. -/
structure Service where
  /-- How the URIs of documents are read. -/
  uris : UriReader := .plain
  phase : Phase := .waiting
  session : Session := {}

/-- The service after a message, with its reply, the log, and what else the editor is sent. -/
structure ServiceOutcome where
  service : Service
  reply : Reply := .none
  events : List Event := []
  notices : List Notice := []

namespace Service

/-- Turns a message away. -/
def refuse (s : Service) (id : Option RequestId) (reason : Refusal) : ServiceOutcome :=
  match id with
  | none => { service := s }
  | some id => { service := s, reply := .refused id reason }

/-- Passes a request on to the session. -/
def serve (s : Service) (id : Option RequestId) (request : Request) : Checked ServiceOutcome := do
  let done ← s.session.handle request
  return { service := { s with session := done.session }
           reply := match id with
             | none => .none
             | some id => .result id done.answer
           events := done.events
           notices := done.notices }

/-- Opens the session, if the message is a request and asks for it properly. -/
def start (s : Service) (message : Message) : Checked ServiceOutcome :=
  match message.id, message.params.bind (Params.start? s.uris) with
  | none, _ => .ok { service := s }
  | some id, none => .ok (s.refuse (some id) .invalidParams)
  | some id, some request => ({ s with phase := .running } : Service).serve (some id) request

/-- Closes the session to further requests, also where the message is otherwise not as it should be:
it is a request and has no parameters. -/
def stop (s : Service) (message : Message) : Checked ServiceOutcome :=
  let closing : Service := { s with phase := .closing }
  match message.id, message.params with
  | none, _ => .ok { service := closing }
  | some id, none => closing.serve (some id) .stop
  | some id, some _ => .ok (closing.refuse (some id) .invalidParams)

/-- Turns away a message of an unknown method. A method whose name starts with a dollar sign may be
left out by any server, so it is not even complained of. -/
def passOver (s : Service) (message : Message) : ServiceOutcome :=
  if "$/".toList.isPrefixOf message.method.toList then { service := s }
  else s.refuse message.id .unknownMethod

/-- Answers a message of a method of the session. What should be a request and is none, and what
should be none and is, does nothing. -/
def dispatch (s : Service) (method : Method) (message : Message) : Checked ServiceOutcome :=
  match method, message.id with
  | .request _, none => .ok { service := s }
  | .request read, some id =>
      match message.params.bind (read s.uris) with
      | none => .ok (s.refuse (some id) .invalidParams)
      | some request => s.serve (some id) request
  | .notification _, some id => .ok (s.refuse (some id) .invalidRequest)
  | .notification read, none =>
      match message.params.bind (read s.uris) with
      | none => .ok { service := s }
      | some request => s.serve none request
  | .requestElsewhere shape, id =>
      if message.params.any (shape.accepts s.uris) then .ok (s.refuse id .unknownMethod)
      else .ok (s.refuse id .invalidParams)
  | .notificationElsewhere, id => .ok (s.refuse id .invalidRequest)

/-- Answers a message that only an open session takes. -/
def whileRunning (s : Service) (message : Message) (answer : Checked ServiceOutcome) :
    Checked ServiceOutcome :=
  match s.phase with
  | .waiting => .ok (s.refuse message.id .notStarted)
  | .running => answer
  | .closing => .ok (s.refuse message.id .invalidRequest)
  | .ended => .ok { service := s, reply := .ended }

/-- Answers a message of a service that has not ended. -/
def answer (s : Service) (message : Message) : Checked ServiceOutcome :=
  match message.method with
  | "exit" => .ok { service := { s with phase := .ended } }
  | "$/cancelRequest" => .ok (s.refuse message.id .invalidRequest)
  | "initialize" =>
      if s.phase = .waiting then s.start message
      else .ok (s.refuse message.id .invalidRequest)
  | "shutdown" => s.whileRunning message (s.stop message)
  | name =>
      match Method.find? name with
      | none => .ok (s.passOver message)
      | some method => s.whileRunning message (s.dispatch method message)

/-- Answers a message. -/
def handle (s : Service) (message : Message) : Checked ServiceOutcome :=
  if s.phase = .ended then .ok { service := s, reply := .ended } else s.answer message

end Service

end AsmLens
