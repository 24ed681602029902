import MediaBridge.Settings.Json
import MediaBridge.Text.Blank
import MediaBridge.Text.LetterCase
import MediaBridge.Value.Plain

/-!
# Loading settings

Settings come from given values, from environment variables and from defaults, in this order of
precedence. The conversion is configured field by field: by given fields, by one variable per
field, and by one variable with all fields.
-/

namespace MediaBridge

abbrev Environment := OrderedMap String String

abbrev Fields := OrderedMap Value Value

def trueWords : List String := ["1", "true", "yes", "y", "on"]

/-- A value as a truth value, if it is given. Plain texts are compared with the words for truth. -/
def Value.truth? : Value → Except Fault (Option Bool)
  | .none => .ok Option.none
  | .bool b => .ok (some b)
  | v => do return some (trueWords.contains (Text.lower (Text.trim (← v.plainText))))

/-- What a setting is read as, if it is not refused. Refusals are collected over all settings, while
any other fault ends the reading. -/
def unlessRefused {α : Type} (r : Except Fault α) : Except Fault (Option α) :=
  match r with
  | .ok a => .ok (some a)
  | .error (.invalid _) | .error (.malformedUri ..) | .error .invalidSetting => .ok none
  | .error e => .error e

/-- What has been read, if no setting was refused. -/
def ofSettings {α : Type} (a : Option α) : Except Fault α := a.elim (.error .invalidSetting) .ok

namespace ConversionConfig

def fieldNames : List String := ["keep_float_values", "keep_extras", "log_dropped_keys"]

/-- The value of a field, true if it is missing. -/
def field (m : Fields) (name : String) : Except Fault Bool := do
  match m.get? (.ofString name) with
  | some v => return (← v.truth?).getD true
  | none => return true

/-- The configuration with the given fields. Unknown fields are ignored, and any value with a plain
text is understood. -/
def ofFields (m : Fields) : Except Fault ConversionConfig := do
  let keepFloatValues ← unlessRefused (field m "keep_float_values")
  let keepExtras ← unlessRefused (field m "keep_extras")
  let logDroppedKeys ← unlessRefused (field m "log_dropped_keys")
  ofSettings do
    return {
      keepFloatValues := ← keepFloatValues
      keepExtras := ← keepExtras
      logDroppedKeys := ← logDroppedKeys }

end ConversionConfig

/-- How environment variables are read. -/
structure ReadingOptions where
  caseSensitive : Bool := false
  skipEmpty : Bool := false
  leader : String := ""

def ReadingOptions.ofFields (given : Fields) : Except Fault ReadingOptions := do
  let flag (name : String) : Bool := (given.get? (.ofString name)).any Value.isTruthy
  let leader ← match given.get? (.ofString "_env_prefix") with
    | none | some .none => pure ""
    | some (.text w) => pure w.text
    | some _ => throw .unsuitable
  return { caseSensitive := flag "_case_sensitive", skipEmpty := flag "_env_ignore_empty", leader }

namespace Environment

/-- The variables that count, without the leader of their names. Unless case matters, names are
lowered, and of two names that differ in case only, the later one counts. -/
def read (env : Environment) (options : ReadingOptions) : Environment :=
  let fold (s : String) : String := if options.caseSensitive then s else Text.lower s
  let kept := env.toList.filter fun (_, value) => !(options.skipEmpty && value = "")
  let folded : Environment := OrderedMap.ofList (kept.map fun (name, value) => (fold name, value))
  OrderedMap.ofList (folded.toList.filterMap fun (name, value) =>
    (Json.keyword? (fold options.leader) name.toList).map (String.ofList ·, value))

/-- What separates the name of a structured setting from the name of a field. -/
def splitDelimiter : List Char → List (List Char)
  | [] => [[]]
  | '_' :: '_' :: cs => [] :: splitDelimiter cs
  | c :: cs =>
    match splitDelimiter cs with
    | [] => [[c]]
    | f :: fs => (c :: f) :: fs

/-- Take the variable of a field into account. A variable of a part of a field makes the field a
map, unless it has a text already; no field is a map in the end, so the parts do not matter. -/
def addField (m : Fields) (path : List (List Char)) (value : String) : Fields :=
  match path with
  | [] => m
  | [field] => m.insert (.ofString (String.ofList field)) (.ofString value)
  | field :: _ :: _ =>
    let key : Value := .ofString (String.ofList field)
    if m.contains key then m else m.insert key (.map false .empty)

/-- The fields of the conversion that have variables of their own. -/
def conversionFields (env : Environment) : Fields :=
  env.toList.foldl (fun m (name, value) =>
    match Json.keyword? "conversion__" name.toList with
    | some rest => addField m (splitDelimiter rest) value
    | none => m) .empty

/-- Give the fields the case of the known names. Of two names that differ in case only, the later
one counts. -/
def canonicalFields (m : Fields) : Fields :=
  OrderedMap.ofList (m.toList.map fun (name, value) =>
    match name.text? with
    | some s =>
      (.ofString ((ConversionConfig.fieldNames.find? (· = Text.lower s)).getD s), value)
    | none => (name, value))

/-- What the variables say about the conversion, if anything. -/
def conversion? (env : Environment) (caseSensitive : Bool) : Except Fault (Option Value) :=
  let fields := env.conversionFields
  let known (m : Fields) : Value := .map false (if caseSensitive then m else canonicalFields m)
  match env.get? "conversion" with
  | none => .ok (if fields.isEmpty then none else some (known fields))
  | some text =>
    match Json.parse text with
    | .error .malformed => .error .unreadableSetting
    | .error .tooDeep => .error .tooDeep
    | .ok .none => .ok none
    | .ok (.map _ m) => .ok (some (known (m.insertAll fields.toList)))
    | .ok v => .ok (some v)

end Environment

namespace Settings

/-- A level as a text: trimmed and in upper case. -/
def levelText : Value → Except Fault String
  | .none => .ok "INFO"
  | v => do return Text.upper (Text.trim (← v.plainText))

/-- A setting that must be a text. A member of a vocabulary of numbers stands for its number. -/
def textSetting : Value → Except Fault String
  | .text w => .ok w.text
  | .whole (.style s) => .ok (toString s.number)
  | _ => .error .invalidSetting

/-- A setting that must be a conversion configuration or a map of its fields. -/
def conversionSetting : Value → Except Fault ConversionConfig
  | .conversion c => .ok c
  | .map _ m => ConversionConfig.ofFields m
  | _ => .error .invalidSetting

/-- The given value of a setting. Its name may be in any case, and the first such name counts. -/
def given? (given : Fields) (name : String) : Option Value :=
  (given.toList.find? fun (key, _) => key.text?.any (Text.lower · = name)).map (·.2)

/-- A given value before one of the environment. Two maps are joined field by field, unless the
given one is sealed. -/
def precede : Option Value → Option Value → Option Value
  | some (.map false m), some (.map _ base) => some (.map false (base.insertAll m.toList))
  | some v, _ => some v
  | none, v => v

/-- The settings for given values and an environment. -/
def load (given : Fields) (env : Environment) : Except Fault Settings := do
  let options ← ReadingOptions.ofFields given
  let env := env.read options
  let conversion := precede (given? given "conversion")
    (← env.conversion? options.caseSensitive)
  let value (name default : String) : Value :=
    ((given? given name).or ((env.get? name).map .ofString)).getD (.ofString default)
  let appName ← unlessRefused (textSetting (value "app_name" "mediacompat"))
  let appEnv ← unlessRefused (textSetting (value "app_env" "development"))
  let logLevel ← unlessRefused (levelText (value "log_level" "INFO"))
  let conversion ← unlessRefused (conversion.elim (.ok {}) conversionSetting)
  ofSettings do
    return {
      appName := ← appName
      appEnv := ← appEnv
      logLevel := ← logLevel
      conversion := ← conversion }

end Settings

/-- The environment, and the settings loaded from it on first use. -/
structure SettingsStore where
  environment : Environment := .empty
  cached : Option Settings := none

namespace SettingsStore

/-- The settings. They are loaded once, and again after a failure. -/
def get (s : SettingsStore) : Except Fault Settings × SettingsStore :=
  match s.cached with
  | some settings => (.ok settings, s)
  | none =>
    match Settings.load .empty s.environment with
    | .ok settings => (.ok settings, { s with cached := some settings })
    | .error e => (.error e, s)

/-- Let the settings be loaded again. -/
def forget (s : SettingsStore) : SettingsStore := { s with cached := none }

end SettingsStore

end MediaBridge
