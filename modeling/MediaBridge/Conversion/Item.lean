import MediaBridge.Conversion.Description
import MediaBridge.Item.Basic
import MediaBridge.Value.Collection

/-!
# Conversion of items

Items of the new schema become legacy items, and back. Absent items stay absent, and so does a
legacy item without an identifier; lists of items lose those.
-/

namespace MediaBridge

/-- The legacy item that corresponds to an item. -/
def Item.toLegacy (i : Item) : Except Fault LegacyItem := do
  let mediaId : Value := .text i.mediaId
  let description : Description ← match i.metadata with
    | none => pure ⟨mediaId, .none, .none, .none, .none, .none, .none, .none⟩
    | some m => Metadata.toDescription m mediaId
  LegacyItem.ofValues (.description description) (.ofInt i.flags.toInt)

/-- The item that corresponds to a legacy item, if that has an identifier. -/
def LegacyItem.toItem (i : LegacyItem) : Except Fault (Option Item) := do
  if !(LegacyItem.mediaId i).isTruthy then return none
  else
    let metadata ← Description.toMetadata i.description
    let b : ItemBuilder :=
      { flags := .whole i.flags, mediaId := LegacyItem.mediaId i, metadata := .metadata metadata }
    return some (← b.build)

/-- Convert the members of a list in order, leaving out those without a counterpart. The first
fault ends the conversion. -/
def convertAll {α β : Type} (convert : α → Except Fault (Option β)) (xs : List α) :
    Except Fault (List β) := do
  return (← xs.mapM convert).filterMap id

def Value.toLegacyItem : Value → Except Fault (Option LegacyItem)
  | .none => .ok Option.none
  | .item i => some <$> Item.toLegacy i
  | _ => .error .missingPart

/-- The metadata of a description that may be absent. Other objects that carry an identifier lack
the fields for display, but their identifier is turned into a text first. -/
def Value.descriptionToMetadata (v : Value) : Except Fault (Option Metadata) :=
  match v with
  | .none => .ok Option.none
  | .description d => some <$> Description.toMetadata d
  | _ => do
    discard (← v.mediaId).asText
    .error .missingPart

/-- The item of a legacy item that may be absent. Other objects that carry an identifier are as
good as absent if it is empty. -/
def Value.toItem (v : Value) : Except Fault (Option Item) :=
  match v with
  | .none => .ok Option.none
  | .legacyItem i => LegacyItem.toItem i
  | _ => do
    if !(← v.mediaId).isTruthy then return Option.none
    else
      match v with
      | .description d => (do discard d.description.descriptionToMetadata; .error .missingPart)
      | _ => .error .missingPart

/-- The legacy items of the items that a value is made of, without absent ones. -/
def Value.toLegacyItems (v : Value) : Except Fault (List LegacyItem) := do
  convertAll Value.toLegacyItem (← v.members)

/-- The items of the legacy items that a value is made of, without absent ones and those without an
identifier. -/
def Value.toItems (v : Value) : Except Fault (List Item) := do
  convertAll Value.toItem (← v.members)

end MediaBridge
