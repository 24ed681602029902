import MediaBridge.Session.Basic
import MediaBridge.Settings.Variable

/-!
# Settings in a session

Replacing the environment, and settings and configurations for given values.
-/

namespace MediaBridge

namespace Action

/-- Set environment variables in place of all others, and tell the settings in use then. After a
fault the variables before it are set, and the settings in use stay so. -/
def setEnvironment (given : Value) (clear : Bool) : Action Settings := do
  let (r, environment) := Environment.setAll .empty given.assignments
  modify fun s => { s with settings := { s.settings with environment } }
  r
  if clear then modify fun s => { s with settings := s.settings.forget }
  settings

/-- Settings for given values and the environment in use. They are not kept. -/
def loadSettings (given : Value) : Action Settings := do
  Settings.load (← given.toKeywords) (← get).settings.environment

end Action

def ConversionConfig.ofValue (given : Value) : Except Fault ConversionConfig := do
  ConversionConfig.ofFields (← given.toKeywords)

end MediaBridge
