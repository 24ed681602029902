import MediaBridge.Value.Receiver

/-!
# Environment variables

Setting environment variables to what a value describes. They are set one after the other, so those
before a fault stay set.
-/

namespace MediaBridge

/-- What a value assigns to names, in order. Maps are made of their entries, bags have keys whose
values cannot be asked for, and other collections must be made of pairs. -/
def Value.assignments : Value → List (Except Fault (Value × Value))
  | .map _ m => m.toList.map .ok
  | .metadata m => m.keys.map fun _ => .error .unsuitable
  | .legacyMetadata m => m.keys.map fun _ => .error .unsuitable
  | v =>
    match v.members with
    | .ok parts => parts.map (·.toPair .notPair)
    | .error e => [.error e]

/-- An environment variable. The null character ends a text there, and the first equals sign ends
the name, so neither can be part of one. -/
def checkVariable (name value : String) : Except Fault Unit :=
  if name.contains '\x00' || value.contains '\x00' then refuse .embeddedNull
  else if name.contains '=' then refuse .illegalVariable
  else if name = "" then .error .namelessVariable
  else .ok ()

namespace Environment

/-- The variable that an assignment sets. Its name and its value must be texts. -/
def assigned (assignment : Except Fault (Value × Value)) : Except Fault (String × String) := do
  let (name, value) ← assignment
  let name ← name.toText
  let value ← value.toText
  checkVariable name value
  return (name, value)

/-- Set variables up to the first fault. -/
def setAll (env : Environment) :
    List (Except Fault (Value × Value)) → Except Fault Unit × Environment
  | [] => (.ok (), env)
  | a :: rest =>
    match assigned a with
    | .ok (name, value) => setAll (env.insert name value) rest
    | .error e => (.error e, env)

end Environment

end MediaBridge
