import MediaBridge.Fault
import MediaBridge.Value.Key

/-!
# Kinds of keys

Any value may be used as a key, and the vocabulary says which keys are bound to a kind of value.
-/

namespace MediaBridge.Value

/-- The kind a key must hold, none for a key outside the vocabulary. -/
def boundKind? (key : Value) : Option ValueKind := key.text?.bind declaredKind?

/-- The kind a key must hold, if the value can be a key. -/
def expectedKind (key : Value) : Except Fault (Option ValueKind) :=
  if key.canBeKey then .ok key.boundKind? else .error .unsuitable

def admits (key : Value) (kind : ValueKind) : Bool :=
  key.boundKind? = Option.none || key.boundKind? = some kind

/-- A key of the vocabulary holds its declared kind only. -/
def checkKind (key : Value) (kind : Option ValueKind) : Except Fault Unit :=
  if !key.canBeKey then .error .unsuitable
  else
    match key.boundKind?, kind with
    | Option.none, _ => .ok ()
    | some declared, some given =>
      if declared = given then .ok () else refuse (.wrongKind key declared given)
    | some _, Option.none => .error .missingPart

/-- A key of a bag that is being built: a text that is not empty and may hold the kind. -/
def checkKey (key : Value) (kind : ValueKind) : Except Fault Unit :=
  match key.text? with
  | some s => if s = "" then refuse .emptyKey else key.checkKind (some kind)
  | Option.none => refuse .emptyKey

def kindOf (value : Value) : Except Fault ValueKind :=
  match value.text?.bind ValueKind.ofIdentifier? with
  | some kind => .ok kind
  | Option.none => refuse (.noSuchKind value)

end MediaBridge.Value
