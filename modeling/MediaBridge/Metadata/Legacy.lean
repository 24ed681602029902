import MediaBridge.Metadata.Builder

/-!
# Metadata of the legacy schema

Values under keys, in order. The typed getters and setters know texts, integers, bitmaps and
ratings; extension entries add double-precision numbers and maps that only `OrderedMap.get?` sees.
-/

namespace MediaBridge

namespace LegacyMetadata

def textAt (m : LegacyMetadata) (key : Value) : Value :=
  match m.get? key with
  | some (.text w) => .text w
  | _ => .none

def longAt (m : LegacyMetadata) (key : Value) : Value :=
  match m.get? key with
  | some (.whole n) => .whole n
  | _ => .ofInt 0

def bitmapAt (m : LegacyMetadata) (key : Value) : Value :=
  match m.get? key with
  | some (.bitmap name) => .bitmap name
  | _ => .none

def ratingAt (m : LegacyMetadata) (key : Value) : Value :=
  match m.get? key with
  | some (.legacyRating r) => .legacyRating r
  | _ => .none

/-- The value of an extension entry: a double-precision number, or a map, which is sealed. -/
def asExtension (key : Value) : Value → Except Fault Value
  | .real x => .ok (.real x)
  | .map _ m => .ok (.map true m)
  | _ => refuse (.notExtension key)

/-- Add extension entries one after the other. A present key keeps its place and loses its old
value. -/
def extend (m : LegacyMetadata) (entries : OrderedMap Value Value) :
    Except Fault LegacyMetadata :=
  entries.toList.foldlM
    (fun m (key, value) => do return m.insert key (← asExtension key value)) m

end LegacyMetadata

def Value.asLegacyRating (v key : Value) : Except Fault Value :=
  match v with
  | .none => .ok .none
  | .legacyRating r => .ok (.legacyRating r)
  | _ => refuse (.notLegacyRating key)

/-- A setter of a builder of the legacy schema with its arguments. -/
inductive LegacyMetadataSetter where
  | text (key value : Value)
  | long (key value : Value)
  | bitmap (key value : Value)
  | rating (key value : Value)

/-- What a setter stores, if its value is of the right kind. -/
def LegacyMetadataSetter.change : LegacyMetadataSetter → Except Fault Change
  | .text key value => do return ⟨key, .text, ← value.asText⟩
  | .long key value => do return ⟨key, .long, ← value.asLong key⟩
  | .bitmap key value => do return ⟨key, .bitmap, ← value.asBitmap key⟩
  | .rating key value => do return ⟨key, .rating, ← value.asLegacyRating key⟩

structure LegacyMetadataBuilder where
  raw : LegacyMetadata := .empty

namespace LegacyMetadataBuilder

def ofSource (source : LegacyMetadata) : LegacyMetadataBuilder := ⟨source⟩

/-- Store the value of a change, or remove the key. The kind is only checked against the key. -/
def store (b : LegacyMetadataBuilder) (c : Change) : Except Fault LegacyMetadataBuilder := do
  c.key.checkKey c.kind
  match c.value with
  | .none => return ⟨b.raw.erase c.key⟩
  | value => return ⟨b.raw.insert c.key value⟩

def apply (b : LegacyMetadataBuilder) (call : LegacyMetadataSetter) :
    Except Fault LegacyMetadataBuilder := do
  b.store (← call.change)

/-- Call setters one after the other. A call that fails leaves no trace. -/
def applyAll (b : LegacyMetadataBuilder) (l : List LegacyMetadataSetter) :
    LegacyMetadataBuilder :=
  l.foldl (fun b call => (b.apply call).toOption.getD b) b

def build (b : LegacyMetadataBuilder) : LegacyMetadata := b.raw

end LegacyMetadataBuilder

end MediaBridge
