import MediaBridge.OrderedMap
import MediaBridge.Rating.Legacy
import MediaBridge.Settings.Basic
import MediaBridge.Uri.Basic
import MediaBridge.Value.Word

/-!
# Values

What metadata bags can hold and operations can be given: scalars, lists, maps and the objects of
both schemas. Bags and descriptions of unchecked content take any value, so the types of such
objects are declared here, over an arbitrary type of values, together with the values.
-/

namespace MediaBridge

/-- A piece of content with the tag of its kind, if it has one. -/
structure Tagged (α : Type) where
  kind : Option ValueKind
  content : α

/-- The display fields of an item in the legacy schema. All of them are optional and unchecked. -/
structure DescriptionOf (α : Type) where
  mediaId : α
  title : α
  subtitle : α
  description : α
  iconBitmap : α
  iconUri : α
  extras : α
  mediaUri : α

/-- An entry of the new schema: an identifier, metadata and flags. -/
structure ItemOf (α : Type) where
  mediaId : Word
  metadata : Option (OrderedMap α (Tagged α))
  flags : Whole

/-- An entry of the legacy schema: a description and flags. -/
structure LegacyItemOf (α : Type) where
  description : DescriptionOf α
  flags : Whole

/-- A value. A sealed map is one that can no longer be changed; the components of a uri that was
not parsed are unchecked; a bitmap is known by its name only; a builder is known by its number. -/
inductive Value where
  | none
  | bool (b : Bool)
  | whole (n : Whole)
  | real (x : Double)
  | text (w : Word)
  | bitmap (name : String)
  | list (xs : List Value)
  | pair (first second : Value)
  | map (isSealed : Bool) (m : OrderedMap Value Value)
  | uri (u : UriOf Value)
  | rating (r : Rating)
  | legacyRating (r : LegacyRating)
  | entry (e : Tagged Value)
  | metadata (m : OrderedMap Value (Tagged Value))
  | legacyMetadata (m : OrderedMap Value Value)
  | description (d : DescriptionOf Value)
  | item (i : ItemOf Value)
  | legacyItem (i : LegacyItemOf Value)
  | conversion (c : ConversionConfig)
  | settings (s : Settings)
  | builder (id : Nat)

instance : Inhabited Value := ⟨.none⟩

abbrev Entry := Tagged Value

/-- Metadata of the new schema: keys with typed entries, in order. -/
abbrev Metadata := OrderedMap Value Entry

/-- Metadata of the legacy schema: keys with values, in order. -/
abbrev LegacyMetadata := OrderedMap Value Value

/-- The display fields of an item in the legacy schema. -/
abbrev Description := DescriptionOf Value

abbrev Item := ItemOf Value

abbrev LegacyItem := LegacyItemOf Value

namespace Value

def ofString (s : String) : Value := .text (.plain s)

def ofInt (n : Int) : Value := .whole (.plain n)

def ofUri (u : Uri) : Value := .uri (UriOf.map ofString u)

def ofKey (k : MetadataKey) : Value := .text (.term (.key k))

def ofOption {α : Type} (f : α → Value) (a : Option α) : Value := (a.map f).getD .none

def isNone : Value → Bool
  | .none => true
  | _ => false

def text? : Value → Option String
  | .text w => some w.text
  | _ => Option.none

/-- The number that a value is. Truth values are zero and one. -/
def number? : Value → Option Number
  | .bool b => some (.ofInt (if b then 1 else 0))
  | .whole n => some (.whole n)
  | .real x => some (.real x)
  | _ => Option.none

/-- Whether a condition on the value holds. Zero and everything empty counts as false. -/
def isTruthy : Value → Bool
  | .none => false
  | .bool b => b
  | .whole n => n.toInt ≠ 0
  | .real x => !x.isZero
  | .text w => !w.isEmpty
  | .list xs => !xs.isEmpty
  | .map _ m => !m.isEmpty
  | .metadata m => !m.isEmpty
  | .legacyMetadata m => !m.isEmpty
  | _ => true

end Value

end MediaBridge
