import AsmLens.Json

/-!
The settings of a session. An editor may send them as an object or as an array; what it leaves out
keeps its default. The first value that does not fit is reported, and no part of such settings is
used.
-/

namespace AsmLens

/-- The settings of a session. -/
structure Config where
  /-- Whether diagnostics are reported when they are asked for. -/
  labelDiagnostics : Bool := true
  /-- Whether the editor is told that it may ask for changes instead of all tokens. -/
  semanticTokensDelta : Bool := true
  deriving DecidableEq, Repr

/-- What a value of the settings should have been. -/
inductive ConfigExpectation where
  | flag
  | settings
  deriving DecidableEq, Repr

/-- Why settings are turned down. -/
inductive ConfigError where
  /-- A value is not of the kind expected. -/
  | wrongKind (found : Json) (expected : ConfigExpectation)
  /-- An array of settings has too many items. -/
  | tooManyItems (count : Nat)

namespace ConfigExpectation

def describe : ConfigExpectation → String
  | flag => "a boolean"
  | settings => "struct ServerConfig"

end ConfigExpectation

namespace ConfigError

def message : ConfigError → String
  | wrongKind found expected =>
      "invalid type: " ++ found.describe ++ ", expected " ++ expected.describe
  | tooManyItems count =>
      "invalid length " ++ toString count ++ ", expected fewer elements in array"

end ConfigError

namespace Config

/-- The value of one setting. -/
def flag : Option Json → Except ConfigError Bool
  | none => .ok true
  | some (.bool value) => .ok value
  | some other => .error (.wrongKind other .flag)

/-- The settings that an editor sends. In an object the two settings are looked at in the order of
their names; in an array they come first, and its length is looked at last. -/
def ofOptions : Option Json → Except ConfigError Config
  | none => .ok {}
  | some .null => .ok {}
  | some (.object fields) => do
      let labelDiagnostics ← flag (fields.lookup "labelDiagnostics")
      let semanticTokensDelta ← flag (fields.lookup "semanticTokensDelta")
      return { labelDiagnostics, semanticTokensDelta }
  | some (.array items) => do
      let labelDiagnostics ← flag items[0]?
      let semanticTokensDelta ← flag items[1]?
      if 2 < items.length then .error (.tooManyItems items.length)
      else return { labelDiagnostics, semanticTokensDelta }
  | some other => .error (.wrongKind other .settings)

/-- The settings to go on with: the defaults, if those that were sent are turned down. -/
def orDefault : Except ConfigError Config → Config
  | .ok config => config
  | .error _ => {}

end Config

end AsmLens
