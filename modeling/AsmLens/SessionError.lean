import AsmLens.Config

/-!
What can be wrong with a request. None of it stops a session: the request gets an empty answer or
goes on with defaults, and the error is logged.
-/

namespace AsmLens

/-- Why a request cannot be answered as it was meant. -/
inductive SessionError where
  /-- The document was never opened, or is closed. -/
  | documentNotFound (uri : String)
  /-- The settings were turned down. -/
  | invalidConfig (cause : ConfigError)

namespace SessionError

def message : SessionError → String
  | documentNotFound uri => "document not found: " ++ uri
  | invalidConfig cause => "invalid initialization options: " ++ cause.message

end SessionError

end AsmLens
