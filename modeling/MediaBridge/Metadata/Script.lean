import MediaBridge.Value.Receiver

/-!
# Scripts

Metadata built by a list of calls, each a list of the name of a setter and its arguments. A call may
also ask for the metadata built so far, to no effect. The first fault ends the script.
-/

namespace MediaBridge

/-- A call of a script: a name and arguments. -/
def Value.toCall (v : Value) : Except Fault (String × List Value) := do
  match ← v.members with
  | [] => refuse .emptyCall
  | name :: args => return (← name.toText, args)

/-- The fault of a call that is none of the known ones: its arguments are too many or too few, or
its name is unknown. -/
def callFault (names : List String) (name : String) : Fault :=
  if names.contains name then .unsuitable else .missingPart

namespace MetadataSetter

def names : List String :=
  ["put_text", "put_long", "put_float", "put_bitmap", "put_rating", "set_extras", "build"]

/-- The setter that a call stands for, none for a build. -/
def ofCall? (name : String) (args : List Value) : Except Fault (Option MetadataSetter) :=
  match name, args with
  | "put_text", [key, value] => .ok (some (.text key value))
  | "put_long", [key, value] => .ok (some (.long key value))
  | "put_float", [key, value] => .ok (some (.float key value))
  | "put_bitmap", [key, value] => .ok (some (.bitmap key value))
  | "put_rating", [key, value] => .ok (some (.rating key value))
  | "set_extras", [value] => .ok (some (.extras value))
  | "build", [] => .ok none
  | _, _ => .error (callFault names name)

end MetadataSetter

def MetadataBuilder.applyCall (b : MetadataBuilder) (call : Value) :
    Except Fault MetadataBuilder := do
  let (name, args) ← call.toCall
  match ← MetadataSetter.ofCall? name args with
  | some setter => b.apply setter
  | none => return b

def Metadata.ofScript (script source : Value) : Except Fault Metadata := do
  let b ← source.toMetadataBuilder
  let b ← (← script.members).foldlM MetadataBuilder.applyCall b
  b.build

namespace LegacyMetadataSetter

def names : List String := ["put_text", "put_long", "put_bitmap", "put_rating", "build"]

/-- The setter that a call stands for, none for a build. -/
def ofCall? (name : String) (args : List Value) : Except Fault (Option LegacyMetadataSetter) :=
  match name, args with
  | "put_text", [key, value] => .ok (some (.text key value))
  | "put_long", [key, value] => .ok (some (.long key value))
  | "put_bitmap", [key, value] => .ok (some (.bitmap key value))
  | "put_rating", [key, value] => .ok (some (.rating key value))
  | "build", [] => .ok none
  | _, _ => .error (callFault names name)

end LegacyMetadataSetter

def LegacyMetadataBuilder.applyCall (b : LegacyMetadataBuilder) (call : Value) :
    Except Fault LegacyMetadataBuilder := do
  let (name, args) ← call.toCall
  match ← LegacyMetadataSetter.ofCall? name args with
  | some setter => b.apply setter
  | none => return b

def LegacyMetadata.ofScript (script source : Value) : Except Fault LegacyMetadata := do
  let b ← source.toLegacyMetadataBuilder
  let b ← (← script.members).foldlM LegacyMetadataBuilder.applyCall b
  return b.build

end MediaBridge
