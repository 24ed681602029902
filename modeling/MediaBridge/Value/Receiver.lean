import MediaBridge.Conversion.Item
import MediaBridge.Metadata.Legacy
import MediaBridge.Settings.Load

/-!
# Values as objects

What a value is taken for where an object of one type is needed. A value of any other kind lacks
the parts of that object, or is unsuitable where only its kind was looked at.
-/

namespace MediaBridge.Value

def toText (v : Value) : Except Fault String :=
  match v.text? with
  | some s => .ok s
  | Option.none => .error .unsuitable

def toMap : Value → Except Fault (OrderedMap Value Value)
  | .map _ m => .ok m
  | _ => .error .unsuitable

/-- The keywords that a value is: a map from texts. Whatever counts as empty has none. -/
def toKeywords (v : Value) : Except Fault Fields := do
  if !v.isTruthy then return .empty
  else
    let m ← v.toMap
    if m.keys.all (·.text?.isSome) then return m else throw .unsuitable

def toMetadata : Value → Except Fault Metadata
  | .metadata m => .ok m
  | _ => .error .missingPart

def toLegacyMetadata : Value → Except Fault LegacyMetadata
  | .legacyMetadata m => .ok m
  | _ => .error .missingPart

def toExtensions : Value → Except Fault (OrderedMap Value Value)
  | .map _ m => .ok m
  | _ => .error .missingPart

/-- The kind tag that a value stands for, if there is one. -/
def toKindTag (v : Value) : Except Fault (Option ValueKind) :=
  if v.isNone then .ok Option.none else some <$> v.kindOf

/-- A builder for metadata: an empty one, or one that starts with the entries of a source. -/
def toMetadataBuilder (source : Value) : Except Fault MetadataBuilder :=
  if source.isNone then .ok {} else .ofSource <$> source.toMetadata

/-- A builder for legacy metadata: an empty one, or one that starts with the entries of a source. -/
def toLegacyMetadataBuilder (source : Value) : Except Fault LegacyMetadataBuilder :=
  if source.isNone then .ok {} else .ofSource <$> source.toLegacyMetadata

/-- Objects with fields of their own take any field. Sealed objects refuse to be changed, and plain
values have no fields. -/
def checkTakesField : Value → Except Fault Unit
  | .builder _ | .bitmap _ | .conversion _ | .settings _ => .ok ()
  | .text (.term _) | .whole (.style _) => .ok ()
  | .uri _ | .rating _ | .legacyRating _ | .entry _ | .metadata _ | .legacyMetadata _
  | .description _ | .item _ | .legacyItem _ => .error .unchangeable
  | _ => .error .missingPart

/-- The description of metadata. Legacy metadata have no extras, and no identifier either, but
the uri of their icon is parsed first. -/
def metadataToDescription (v mediaId : Value) : Except Fault Description :=
  match v with
  | .metadata m => Metadata.toDescription m mediaId
  | .legacyMetadata m => do
    if mediaId.isNone then throw .missingPart
    else
      discard (LegacyMetadata.textAt m (.ofKey .displayIconUri)).optionalUri
      throw .missingPart
  | _ => .error .missingPart

end MediaBridge.Value
