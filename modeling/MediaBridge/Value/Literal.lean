import MediaBridge.Number.Shortest
import MediaBridge.Text.Digit
import MediaBridge.Value.Basic

/-!
# Literals

The literal of a value is what messages show and what stands inside lists and maps. A value has one
unless an integer in it has too many digits to be written.
-/

namespace MediaBridge

def boolLiteral (b : Bool) : String := if b then "True" else "False"

/-- Only plain integers can be too long. -/
def Whole.literal? : Whole → Option String
  | .plain n => Text.decimal? n
  | .style s => some (memberLiteral "LegacyRatingStyle" s.identifier (toString s.number))

def Number.literal? : Number → Option String
  | .whole n => n.literal?
  | .real x => some x.toText

/-- Items between brackets, with commas between them. -/
def bracketed (opening : String) (items : List String) (closing : String) : String :=
  opening ++ ", ".intercalate items ++ closing

def objectLiteral (type : String) (fields : List (String × String)) : String :=
  bracketed (type ++ "(") (fields.map fun f => f.1 ++ "=" ++ f.2) ")"

def mapLiteral (entries : List (String × String)) : String :=
  bracketed "\x7b" (entries.map fun e => e.1 ++ ": " ++ e.2) "\x7d"

/-- A map that can no longer be changed. -/
def sealedLiteral (s : String) : String := "mappingproxy(" ++ s ++ ")"

def kindLiteral (kind : Option ValueKind) : String :=
  match kind with
  | some k => (Term.kind k).literal
  | none => "None"

def Rating.literal? (r : Rating) : Option String := do
  let value ← r.value.elim (some "None") Number.literal?
  return objectLiteral "Rating" [("style", (Term.style r.style).literal), ("value", value)]

def LegacyRating.literal? (r : LegacyRating) : Option String := do
  return objectLiteral "LegacyRating" [("style", ← r.style.literal?), ("value", r.value.toText)]

def ConversionConfig.fieldLiterals (c : ConversionConfig) : List (String × String) :=
  [("keep_float_values", boolLiteral c.keepFloatValues), ("keep_extras", boolLiteral c.keepExtras),
    ("log_dropped_keys", boolLiteral c.logDroppedKeys)]

def Settings.fieldLiterals (s : Settings) : List (String × String) :=
  [("app_name", Text.quoted s.appName), ("app_env", Text.quoted s.appEnv),
    ("log_level", Text.quoted s.logLevel),
    ("conversion", objectLiteral "ConversionConfig" s.conversion.fieldLiterals)]

namespace Value

mutual

def literal? : Value → Option String
  | .none => some "None"
  | .bool b => some (boolLiteral b)
  | .whole n => n.literal?
  | .real x => some x.toText
  | .text w => some w.literal
  | .bitmap name => some ("<bitmap " ++ name ++ ">")
  | .list xs => do return bracketed "[" (← literals? xs) "]"
  | .map isSealed ⟨m⟩ => do
    let s := mapLiteral (← pairLiterals? m)
    return if isSealed then sealedLiteral s else s
  | .pair first second => do return bracketed "(" [← first.literal?, ← second.literal?] ")"
  | .uri ⟨scheme, authority, path, query, fragment⟩ => do
    return objectLiteral "MediaUri" [("scheme", ← scheme.literal?),
      ("authority", ← authority.literal?), ("path", ← path.literal?), ("query", ← query.literal?),
      ("fragment", ← fragment.literal?)]
  | .rating r => r.literal?
  | .legacyRating r => r.literal?
  | .entry ⟨kind, content⟩ => do
    return objectLiteral "MetadataValue"
      [("type", kindLiteral kind), ("value", ← content.literal?)]
  | .metadata ⟨m⟩ => do
    return objectLiteral "MediaMetadata"
      [("entries", sealedLiteral (mapLiteral (← entryLiterals? m)))]
  | .legacyMetadata ⟨m⟩ => do
    return objectLiteral "LegacyMetadata" [("raw", sealedLiteral (mapLiteral (← pairLiterals? m)))]
  | .description d => descriptionLiteral? d
  | .item ⟨mediaId, .none, flags⟩ => do
    return objectLiteral "MediaItem" [("media_id", mediaId.literal), ("metadata", "None"),
      ("flags", ← flags.literal?)]
  | .item ⟨mediaId, .some ⟨m⟩, flags⟩ => do
    return objectLiteral "MediaItem" [("media_id", mediaId.literal),
      ("metadata", objectLiteral "MediaMetadata"
        [("entries", sealedLiteral (mapLiteral (← entryLiterals? m)))]),
      ("flags", ← flags.literal?)]
  | .legacyItem ⟨d, flags⟩ => do
    return objectLiteral "LegacyMediaItem"
      [("description", ← descriptionLiteral? d), ("flags", ← flags.literal?)]
  | .conversion c => some (objectLiteral "ConversionConfig" c.fieldLiterals)
  | .settings s => some (objectLiteral "Settings" s.fieldLiterals)
  | .builder id => some ("<builder " ++ toString id ++ ">")
termination_by structural v => v

def literals? : List Value → Option (List String)
  | [] => some []
  | x :: xs => do return (← x.literal?) :: (← literals? xs)
termination_by structural xs => xs

def pairLiterals? : List (Value × Value) → Option (List (String × String))
  | [] => some []
  | (k, v) :: l => do return (← k.literal?, ← v.literal?) :: (← pairLiterals? l)
termination_by structural l => l

def entryLiterals? : List (Value × Tagged Value) → Option (List (String × String))
  | [] => some []
  | (k, ⟨kind, content⟩) :: l => do
    let entry := objectLiteral "MetadataValue"
      [("type", kindLiteral kind), ("value", ← content.literal?)]
    return (← k.literal?, entry) :: (← entryLiterals? l)
termination_by structural l => l

def descriptionLiteral? : DescriptionOf Value → Option String
  | ⟨mediaId, title, subtitle, about, iconBitmap, iconUri, extras, mediaUri⟩ => do
    return objectLiteral "MediaDescription" [("media_id", ← mediaId.literal?),
      ("title", ← title.literal?), ("subtitle", ← subtitle.literal?),
      ("description", ← about.literal?), ("icon_bitmap", ← iconBitmap.literal?),
      ("icon_uri", ← iconUri.literal?), ("extras", ← extras.literal?),
      ("media_uri", ← mediaUri.literal?)]
termination_by structural d => d

end

theorem literal?_ofInt_eq_none_iff {n : Int} :
    (ofInt n).literal? = Option.none ↔ Text.tenPow Text.maxDigits ≤ n.natAbs :=
  Text.decimal?_eq_none_iff

theorem literal?_ofInt_tenPow {k : Nat} (h : Text.maxDigits ≤ k) :
    (ofInt (Text.tenPow k)).literal? = Option.none :=
  literal?_ofInt_eq_none_iff.2 (Text.tenPow_le h)

end Value

end MediaBridge
