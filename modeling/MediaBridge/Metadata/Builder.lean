import MediaBridge.Metadata.Basic
import MediaBridge.Value.Numeric
import MediaBridge.Value.Plain

/-!
# Building metadata

A builder is an ordered map that is changed by one setter call at a time. A setter checks its
value and its key, and then stores the value under the tag of the setter, or removes the key if
there is no value.
-/

namespace MediaBridge

/-- A value as the content of a text entry. Whatever is not a text is turned into one. -/
def Value.asText : Value → Except Fault Value
  | .none => .ok .none
  | .text w => .ok (.text w)
  | v => .text <$> v.plain

def Value.asLong (v key : Value) : Except Fault Value :=
  match v with
  | .none => .ok .none
  | .whole n => .ok (.whole n)
  | _ => refuse (.notLong key)

/-- A value as the content of a float entry. Integers are converted. -/
def Value.asFloat (v key : Value) : Except Fault Value :=
  match v with
  | .none => .ok .none
  | .real x => .ok (.real x)
  | .whole _ => do return .real (← v.toDouble)
  | _ => refuse (.notFloat key)

def Value.asBitmap (v key : Value) : Except Fault Value :=
  match v with
  | .none => .ok .none
  | .bitmap name => .ok (.bitmap name)
  | _ => refuse (.notBitmap key)

def Value.asRating (v key : Value) : Except Fault Value :=
  match v with
  | .none => .ok .none
  | .rating r => .ok (.rating r)
  | _ => refuse (.notRating key)

/-- A value as the content of the extras: a map that can no longer be changed. -/
def Value.asExtras : Value → Except Fault Value
  | .none => .ok .none
  | .map _ m => .ok (.map true m)
  | _ => refuse .extrasNotMap

/-- What a setter stores: a value that fits the kind, or none to remove the key. -/
structure Change where
  key : Value
  kind : ValueKind
  value : Value

/-- A setter of a builder with its arguments. -/
inductive MetadataSetter where
  | text (key value : Value)
  | long (key value : Value)
  | float (key value : Value)
  | bitmap (key value : Value)
  | rating (key value : Value)
  | extras (value : Value)

/-- What a setter stores, if its value is of the right kind. -/
def MetadataSetter.change : MetadataSetter → Except Fault Change
  | .text key value => do return ⟨key, .text, ← value.asText⟩
  | .long key value => do return ⟨key, .long, ← value.asLong key⟩
  | .float key value => do return ⟨key, .float, ← value.asFloat key⟩
  | .bitmap key value => do return ⟨key, .bitmap, ← value.asBitmap key⟩
  | .rating key value => do return ⟨key, .rating, ← value.asRating key⟩
  | .extras value => do return ⟨.ofKey .extras, .extras, ← value.asExtras⟩

structure MetadataBuilder where
  entries : Metadata := .empty

namespace MetadataBuilder

def ofSource (source : Metadata) : MetadataBuilder := ⟨source⟩

/-- Store the value of a change under its kind, or remove the key. -/
def store (b : MetadataBuilder) (c : Change) : Except Fault MetadataBuilder := do
  c.key.checkKey c.kind
  match c.value with
  | .none => return ⟨b.entries.erase c.key⟩
  | value => return ⟨b.entries.insert c.key ⟨some c.kind, value⟩⟩

def apply (b : MetadataBuilder) (call : MetadataSetter) : Except Fault MetadataBuilder := do
  b.store (← call.change)

/-- Call setters one after the other. A call that fails leaves no trace. -/
def applyAll (b : MetadataBuilder) (l : List MetadataSetter) : MetadataBuilder :=
  l.foldl (fun b call => (b.apply call).toOption.getD b) b

/-- The metadata built so far. Every entry is checked against its key once more. -/
def build (b : MetadataBuilder) : Except Fault Metadata := do
  b.entries.toList.forM fun (key, e) => key.checkKind e.kind
  return b.entries

end MetadataBuilder

end MediaBridge
