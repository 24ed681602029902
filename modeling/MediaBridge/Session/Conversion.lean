import MediaBridge.Conversion.Metadata
import MediaBridge.Session.Basic
import MediaBridge.Value.Receiver

/-!
# Conversions in a session

The conversions that depend on the settings in use or report what they drop, for values that may
be absent.
-/

namespace MediaBridge.Action

def metadataToLegacy (v : Value) : Action (Option LegacyMetadata) := do
  if v.isNone then return none
  else
    let config := (← settings).conversion
    let m ← v.toMetadata
    return some (← ofTraced (Metadata.toLegacy config m))

def legacyToMetadata (v : Value) : Action (Option Metadata) := do
  if v.isNone then return none
  else
    let config := (← settings).conversion
    let m ← v.toLegacyMetadata
    return some (← ofTraced (LegacyMetadata.toMetadata config m))

def ratingToLegacy (v : Value) : Action (Option LegacyRating) := ofTraced v.ratingToLegacy

def legacyToRating (v : Value) : Action (Option Rating) :=
  match v with
  | .none => return none
  | .legacyRating r => ofTraced r.toRating
  | _ => throw .missingPart

end MediaBridge.Action
