import MediaBridge.Fault
import MediaBridge.Text.Search
import MediaBridge.Value.Equal

/-!
# Values as collections

What a value is made of, how much of it there is, what it holds, and which map it describes. Texts
are made of characters, maps and bags of keys, and configurations of their named fields.
-/

namespace MediaBridge

def ConversionConfig.fields (c : ConversionConfig) : List (String × Value) :=
  [("keep_float_values", .bool c.keepFloatValues), ("keep_extras", .bool c.keepExtras),
    ("log_dropped_keys", .bool c.logDroppedKeys)]

def Settings.fields (s : Settings) : List (String × Value) :=
  [("app_name", .ofString s.appName), ("app_env", .ofString s.appEnv),
    ("log_level", .ofString s.logLevel), ("conversion", .conversion s.conversion)]

namespace Value

def ofField (f : String × Value) : Value := .pair (.ofString f.1) f.2

/-- Use a value as a key of a map. -/
def withKey {α : Type} (key : Value) (f : Value → α) : Except Fault α :=
  if key.canBeKey then .ok (f key) else .error .unsuitable

def members : Value → Except Fault (List Value)
  | .text w => .ok (w.text.toList.map fun c => .ofString c.toString)
  | .list xs => .ok xs
  | .pair first second => .ok [first, second]
  | .map _ m => .ok m.keys
  | .metadata m => .ok m.keys
  | .legacyMetadata m => .ok m.keys
  | .conversion c => .ok (c.fields.map ofField)
  | .settings s => .ok (s.fields.map ofField)
  | _ => .error .unsuitable

/-- The number of parts. Configurations have parts, but no number of them. -/
def size : Value → Except Fault Nat
  | .conversion _ | .settings _ => .error .unsuitable
  | v => List.length <$> v.members

/-- Whether a value holds another: a text a part of itself, a map or a bag a key, and anything else
a part. -/
def holds (v part : Value) : Except Fault Bool :=
  match v with
  | .text w =>
    match part.text? with
    | some s => .ok (Text.occursIn s.toList w.text.toList)
    | Option.none => .error .unsuitable
  | .map _ m => withKey part m.contains
  | .metadata m => withKey part m.contains
  | .legacyMetadata m => withKey part m.contains
  | _ => do return (← v.members).any (·.same part)

/-- A value as a pair, such as a key and its value. -/
def toPair (v : Value) (cause : Nat → Invalid) : Except Fault (Value × Value) := do
  match ← v.members with
  | [first, second] => return (first, second)
  | parts => refuse (cause parts.length)

/-- The map that a value describes: a map itself, or a collection of keys with their values. A bag
describes a map only if it is empty. -/
def toEntries : Value → Except Fault (OrderedMap Value Value)
  | .map _ m => .ok m
  | .metadata m => if m.isEmpty then .ok .empty else .error .unsuitable
  | .legacyMetadata m => if m.isEmpty then .ok .empty else .error .unsuitable
  | v => do
    (← v.members).zipIdx.foldlM (fun m (element, index) => do
      let (key, value) ← element.toPair (.notKeyAndValue index)
      key.withKey (m.insert · value)) .empty

end Value

end MediaBridge
