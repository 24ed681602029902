import MediaBridge.Conversion.Rating
import MediaBridge.Metadata.Legacy

/-!
# Conversion of metadata

Entries of the new schema become entries of the legacy schema, and back, in order. Kinds that the
legacy schema does not know are kept as extension entries at the end if the configuration says
so. What has no counterpart is dropped, and the dropped keys are reported together.
-/

namespace MediaBridge

def metadataLogger : String := "mediacompat.mappers.metadata"

/-- The texts of keys, which must all be texts. -/
def keyTexts (keys : List Value) : Except Fault (List String) :=
  keys.mapM fun key =>
    match key.text? with
    | some s => .ok s
    | none => .error .unsuitable

/-- Report the keys that were dropped, if any and if the configuration says so. -/
def reportDropped (direction : String) (keys : List Value) (config : ConversionConfig) :
    Traced Unit := do
  if !keys.isEmpty && config.logDroppedKeys then
    let texts ← keyTexts keys
    .report metadataLogger
      (direction ++ ": dropped " ++ toString keys.length ++ " unsupported value(s): " ++
        ", ".intercalate texts)

/-! ## To the legacy schema -/

/-- What the entries seen so far have become: entries of the legacy bag, entries of kinds it does
not know, and dropped keys. -/
structure LegacyDraft where
  bag : LegacyMetadataBuilder := {}
  skipped : List (Value × Entry) := []
  dropped : List Value := []

/-- The legacy rating that corresponds to the content of a rating entry. -/
def Value.ratingToLegacy : Value → Traced (Option LegacyRating)
  | .none => return Option.none
  | .rating r => r.toLegacy
  | .legacyRating _ => .fail .missingEntry
  | _ => .fail .missingPart

/-- Take one entry of the new schema into account. -/
def LegacyDraft.add (d : LegacyDraft) (key : Value) (e : Entry) : Traced LegacyDraft := do
  match e.kind with
  | some .text => return { d with bag := ← d.bag.apply (.text key e.content) }
  | some .rating =>
    match ← e.content.ratingToLegacy with
    | some r => return { d with bag := ← d.bag.apply (.rating key (.legacyRating r)) }
    | none => return { d with dropped := d.dropped ++ [key] }
  | some .bitmap => return { d with bag := ← d.bag.apply (.bitmap key e.content) }
  | some .long => return { d with bag := ← d.bag.apply (.long key e.content) }
  | _ => return { d with skipped := d.skipped ++ [(key, e)] }

/-- Whether an entry that the legacy bag does not know is kept as an extension. -/
def ConversionConfig.keeps (config : ConversionConfig) (key : Value) (e : Entry) : Bool :=
  (e.kind = some .float && config.keepFloatValues) ||
    (key.text? = some MetadataKey.extras.identifier && e.kind = some .extras && config.keepExtras)

def Metadata.toLegacy (config : ConversionConfig) (m : Metadata) : Traced LegacyMetadata := do
  let draft ← m.toList.foldlM (fun d (key, e) => d.add key e) ({} : LegacyDraft)
  let (kept, lost) := draft.skipped.partition fun (key, e) => config.keeps key e
  reportDropped "metadata -> legacy" (draft.dropped ++ lost.map (·.1)) config
  let extension : OrderedMap Value Value := .ofList (kept.map fun (key, e) => (key, e.content))
  LegacyMetadata.extend draft.bag.build extension

/-! ## To the new schema -/

/-- What the entries seen so far have become: entries of the new bag, and dropped keys. -/
structure MetadataDraft where
  bag : MetadataBuilder := {}
  dropped : List Value := []

/-- Take one entry of the legacy schema into account. An entry is dropped if the kind of its value
is unknown or not the one its key is bound to. -/
def MetadataDraft.add (d : MetadataDraft) (key value : Value) : Traced MetadataDraft := do
  let drop : MetadataDraft := { d with dropped := d.dropped ++ [key] }
  match value with
  | .text _ =>
    if key.admits .text then return { d with bag := ← d.bag.apply (.text key value) }
    else return drop
  | .whole _ =>
    if key.admits .long then return { d with bag := ← d.bag.apply (.long key value) }
    else return drop
  | .real _ =>
    if key.admits .float then return { d with bag := ← d.bag.apply (.float key value) }
    else return drop
  | .bitmap _ =>
    if key.admits .bitmap then return { d with bag := ← d.bag.apply (.bitmap key value) }
    else return drop
  | .legacyRating r =>
    if key.admits .rating then
      match ← r.toRating with
      | some r => return { d with bag := ← d.bag.apply (.rating key (.rating r)) }
      | none => return drop
    else return drop
  | .map _ _ =>
    if key.text? = some MetadataKey.extras.identifier then
      return { d with bag := ← d.bag.apply (.extras value) }
    else return drop
  | _ => return drop

def LegacyMetadata.toMetadata (config : ConversionConfig) (m : LegacyMetadata) :
    Traced Metadata := do
  let draft ← m.toList.foldlM (fun d (key, value) => d.add key value) ({} : MetadataDraft)
  reportDropped "legacy -> metadata" draft.dropped config
  draft.bag.build

end MediaBridge
