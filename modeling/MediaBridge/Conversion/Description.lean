import MediaBridge.Metadata.Builder
import MediaBridge.Uri.Parse

/-!
# Conversion of descriptions

The display fields of a legacy item become metadata of the new schema, and metadata are projected
onto the display fields. Uris are parsed in both directions, so that a malformed one is refused
here.
-/

namespace MediaBridge

/-- The uri that a text is. -/
def Value.toUri (v : Value) : Except Fault Uri :=
  match v with
  | .text w => (Uri.parse w.text).mapError (.ofFlaw v)
  | _ => .error (.ofFlaw v .notText)

/-- The canonical text of a uri field: a uri, or a text to be parsed unless it is empty. -/
def Value.canonicalUri (v : Value) : Except Fault Value :=
  match v with
  | .uri _ => .text <$> v.plain
  | _ => if v.isTruthy then do return .ofString (← v.toUri).text else .ok .none

/-- The uri of a text, unless it is empty. -/
def Value.optionalUri (v : Value) : Except Fault Value :=
  if v.isTruthy then .ofUri <$> v.toUri else .ok .none

def MetadataBuilder.applyIf (b : MetadataBuilder) (v : Value) (call : Value → MetadataSetter) :
    Except Fault MetadataBuilder :=
  if v.isNone then .ok b else b.apply (call v)

/-- The metadata of a description. The identifier is always there, be it empty, and every other
field if the description has it. The title is stored as the title for display. -/
def Description.toMetadata (d : Description) : Except Fault Metadata := do
  let mediaId : Value := if d.mediaId.isNone then .ofString "" else d.mediaId
  let b ← MetadataBuilder.apply {} (.text (.ofKey .mediaId) mediaId)
  let b ← b.applyIf d.title (.text (.ofKey .displayTitle))
  let b ← b.applyIf d.description (.text (.ofKey .displayDescription))
  let b ← b.applyIf d.subtitle (.text (.ofKey .displaySubtitle))
  let b ← b.applyIf d.iconBitmap (.bitmap (.ofKey .displayIcon))
  let b ← b.applyIf (← d.iconUri.canonicalUri) (.text (.ofKey .displayIconUri))
  let b ← b.applyIf d.extras .extras
  let b ← b.applyIf (← d.mediaUri.canonicalUri) (.text (.ofKey .mediaUri))
  b.build

/-- The description of metadata. The proper title goes before the title for display, and a given
identifier before the one that the metadata carry. -/
def Metadata.toDescription (m : Metadata) (mediaId : Value := .none) : Except Fault Description := do
  let text (key : MetadataKey) : Value := m.textAt (.ofKey key)
  let title := text .title
  let iconUri ← (text .displayIconUri).optionalUri
  let mediaUri ← (text .mediaUri).optionalUri
  return {
    mediaId := if mediaId.isNone then m.mediaId else mediaId
    title := if title.isNone then text .displayTitle else title
    subtitle := text .displaySubtitle
    description := text .displayDescription
    iconBitmap := m.bitmapAt (.ofKey .displayIcon)
    iconUri
    extras := m.extras
    mediaUri }

end MediaBridge
