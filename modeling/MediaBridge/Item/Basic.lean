import MediaBridge.Metadata.Basic

/-!
# Items

Entries of the two schemas that can be browsed or played, as their flags say. Flags are integers
of any size and sign, of which the two lowest bits have a meaning.
-/

namespace MediaBridge

/-- The flags with a meaning. -/
inductive ItemFlag where
  | browsable
  | playable
deriving DecidableEq

namespace ItemFlag

def all : List ItemFlag := [.browsable, .playable]

def identifier : ItemFlag → String
  | .browsable => "browsable"
  | .playable => "playable"

/-- The integer with the bit of a flag only. -/
def mask : ItemFlag → Int
  | .browsable => 1
  | .playable => 2

/-- Whether flags, as a two's complement integer, have the bit of a flag. -/
def isSetIn (f : ItemFlag) (flags : Int) : Bool := flags / f.mask % 2 = 1

end ItemFlag

/-- Flags as they are: an integer, but no truth value. -/
def Value.asFlags (cause : Invalid) : Value → Except Fault Whole
  | .whole n => .ok n
  | _ => refuse cause

namespace Item

def isBrowsable (i : Item) : Bool := ItemFlag.browsable.isSetIn i.flags.toInt

def isPlayable (i : Item) : Bool := ItemFlag.playable.isSetIn i.flags.toInt

/-- An item needs an identifier that is not empty, metadata of the new schema or none, and
integer flags. -/
def ofValues (mediaId metadata flags : Value) : Except Fault Item :=
  match mediaId with
  | .text w =>
    if w.isEmpty then refuse .noMediaId
    else
      match metadata with
      | .none => do return ⟨w, none, ← flags.asFlags .itemFlags⟩
      | .metadata m => do return ⟨w, some m, ← flags.asFlags .itemFlags⟩
      | _ => refuse .itemMetadata
  | _ => refuse .noMediaId

end Item

namespace LegacyItem

def mediaId (i : LegacyItem) : Value := i.description.mediaId

def isBrowsable (i : LegacyItem) : Bool := ItemFlag.browsable.isSetIn i.flags.toInt

def isPlayable (i : LegacyItem) : Bool := ItemFlag.playable.isSetIn i.flags.toInt

/-- An item of the legacy schema needs a description and integer flags. -/
def ofValues (description flags : Value) : Except Fault LegacyItem :=
  match description with
  | .description d => do return ⟨d, ← flags.asFlags .legacyItemFlags⟩
  | _ => refuse .noDescription

end LegacyItem

/-- The identifier that an object carries, for the objects that have one. The keys of the vocabulary
know each other by name, and the key of the identifier goes by that name. -/
def Value.mediaId : Value → Except Fault Value
  | .text (.term (.key _)) => .ok (.ofKey .mediaId)
  | .metadata m => .ok (Metadata.mediaId m)
  | .item i => .ok (.text i.mediaId)
  | .description d => .ok d.mediaId
  | .legacyItem i => .ok (LegacyItem.mediaId i)
  | _ => .error .missingPart

/-- An item that is being built. Nothing is checked before it is complete. -/
structure ItemBuilder where
  flags : Value := .ofInt 0
  mediaId : Value := .none
  metadata : Value := .none

namespace ItemBuilder

/-- The identifier that was set, or else the one the metadata carry. -/
def effectiveMediaId (b : ItemBuilder) : Except Fault Value :=
  if b.mediaId.isTruthy || b.metadata.isNone then .ok b.mediaId else b.metadata.mediaId

def build (b : ItemBuilder) : Except Fault Item := do
  let mediaId ← b.effectiveMediaId
  Item.ofValues (if mediaId.isTruthy then mediaId else .ofString "") b.metadata b.flags

end ItemBuilder

end MediaBridge
