import AsmLens.Json.Shape

/-!
The shapes of places: positions, ranges and documents, and what requests about a place have in
common.
-/

namespace AsmLens.Shape

def position : Shape := .record [must "line" .word, must "character" .word]

def range : Shape := .record [must "start" .position, must "end" .position]

def location : Shape := .record [must "uri" .uri, must "range" .range]

/-- A document by its name. -/
def document : Shape := .record [must "uri" .uri]

/-- A document that has changed. -/
def versionedDocument : Shape := .record [must "uri" .uri, must "version" .signedWord]

/-- A document that is opened. -/
def openedDocument : Shape :=
  .record [must "uri" .uri, must "languageId" .text, must "version" .signedWord, must "text" .text]

/-- What the reports on the work for a request are told apart by. -/
def progressToken : Shape := .either .signedWord .text

/-- A request whose work may be reported on. -/
def working : List (String × Presence × Shape) := [may "workDoneToken" .progressToken]

/-- A request whose answer may also be sent piece by piece. -/
def streaming : List (String × Presence × Shape) :=
  working ++ [may "partialResultToken" .progressToken]

/-- A request about a document. -/
def ofDocument : List (String × Presence × Shape) := [must "textDocument" .document]

/-- A request about a position in a document. -/
def ofPosition : List (String × Presence × Shape) := ofDocument ++ [must "position" .position]

/-- A request about a range of a document. -/
def ofRange : List (String × Presence × Shape) := ofDocument ++ [must "range" .range]

end AsmLens.Shape
