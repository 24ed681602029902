/-!
# Settings

What can be configured: names and levels of the application, and what conversions keep and report.
-/

namespace MediaBridge

/-- What conversions of metadata keep and report. -/
structure ConversionConfig where
  keepFloatValues : Bool := true
  keepExtras : Bool := true
  logDroppedKeys : Bool := true
deriving DecidableEq, Inhabited

structure Settings where
  appName : String := "mediacompat"
  appEnv : String := "development"
  logLevel : String := "INFO"
  conversion : ConversionConfig := {}
deriving DecidableEq, Inhabited

end MediaBridge
