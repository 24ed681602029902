import MediaBridge.Uri.Authority
import MediaBridge.Value.Literal

/-!
# Faults

Why an operation refuses its arguments, and how the refusal is worded.
-/

namespace MediaBridge

/-- What is wrong with an argument that an operation has examined. -/
inductive Invalid where
  | emptyKey
  | wrongKind (key : Value) (declared given : ValueKind)
  | notLong (key : Value)
  | notFloat (key : Value)
  | notBitmap (key : Value)
  | notRating (key : Value)
  | notLegacyRating (key : Value)
  | extrasNotMap
  | notEntry (key : Value)
  | notExtension (key : Value)
  | noMediaId
  | itemMetadata
  | itemFlags
  | noDescription
  | legacyItemFlags
  | notStyle (style : Value)
  | valueWithoutStyle
  | ratingNotNumber
  | notZeroOrOne (style : RatingStyle)
  | starsOutOfRange (stars : Nat)
  | percentageOutOfRange
  | notStarStyle (style : RatingStyle)
  | legacyStyleNotInt (style : Value)
  | legacyRatingNotNumber
  | legacyNotZeroOrOne
  | unknownStarStyle (style : Value)
  | negativeStars
  | negativePercentage
  | noSuchStyle (value : Value)
  | noSuchLegacyStyle (value : Value)
  | noSuchKind (value : Value)
  | notDouble (value : Value)
  | notInteger (value : Value)
  | integerTooLong (digits : Nat)
  | nanToInteger
  | notKeyAndValue (index parts : Nat)
  | notPair (parts : Nat)
  | emptyCall
  | embeddedNull
  | illegalVariable
  /-- An integer has too many digits to be written. -/
  | tooLongToWrite

namespace Invalid

/-- The refusal of a value that is no member of a vocabulary. -/
def noMember? (value : Value) (vocabulary : String) : Option String := do
  return (← value.literal?) ++ " is not a valid " ++ vocabulary

/-- The wording. There is none if it is to show a value without a literal. -/
def message? : Invalid → Option String
  | .emptyKey => "metadata key must be a non-empty string"
  | .wrongKind key declared given => do
    return "key " ++ (← key.literal?) ++ " holds " ++ declared.identifier ++ " values, not " ++
      given.identifier
  | .notLong key => do return "long value for " ++ (← key.literal?) ++ " must be an int"
  | .notFloat key => do return "float value for " ++ (← key.literal?) ++ " must be a number"
  | .notBitmap key => do return "bitmap value for " ++ (← key.literal?) ++ " must be a PIL image"
  | .notRating key => do return "rating value for " ++ (← key.literal?) ++ " must be a Rating"
  | .notLegacyRating key => do
    return "rating value for " ++ (← key.literal?) ++ " must be a LegacyRating"
  | .extrasNotMap => "extras must be a mapping"
  | .notEntry key => do return "entry " ++ (← key.literal?) ++ " is not a MetadataValue"
  | .notExtension key => do
    return "extension entry " ++ (← key.literal?) ++ " must be a float or a mapping"
  | .noMediaId => "MediaItem.media_id is required"
  | .itemMetadata => "MediaItem.metadata must be a MediaMetadata"
  | .itemFlags => "MediaItem.flags must be an int"
  | .noDescription => "LegacyMediaItem.description is required"
  | .legacyItemFlags => "LegacyMediaItem.flags must be an int"
  | .notStyle style => do
    return "Rating.style must be a RatingStyle, got " ++ (← style.literal?)
  | .valueWithoutStyle => "a rating without style cannot carry a value"
  | .ratingNotNumber => "Rating.value must be a number"
  | .notZeroOrOne style => style.identifier ++ " rating value must be 0 or 1"
  | .starsOutOfRange stars => "star rating must be between 0 and " ++ toString stars
  | .percentageOutOfRange => "percentage rating must be between 0 and 100"
  | .notStarStyle style => style.identifier ++ " is not a star rating style"
  | .legacyStyleNotInt style => do
    return "LegacyRating.style must be an int, got " ++ (← style.literal?)
  | .legacyRatingNotNumber => "LegacyRating.value must be a number"
  | .legacyNotZeroOrOne => "heart/thumb rating value must be 0 or 1"
  | .unknownStarStyle style => do return "invalid star rating style " ++ (← style.literal?)
  | .negativeStars => "star rating must be >= 0"
  | .negativePercentage => "percentage rating must be >= 0"
  | .noSuchStyle value => noMember? value "RatingStyle"
  | .noSuchLegacyStyle value => noMember? value "LegacyRatingStyle"
  | .noSuchKind value => noMember? value "MetadataValueType"
  | .notDouble value => do
    return "could not convert string to float: " ++ (← value.literal?)
  | .notInteger value => do
    return "invalid literal for int() with base 10: " ++
      String.ofList ((← value.literal?).toList.take 200)
  | .integerTooLong digits => Text.tooManyDigits digits
  | .nanToInteger => "cannot convert float NaN to integer"
  | .notKeyAndValue index parts =>
    "dictionary update sequence element #" ++ toString index ++ " has length " ++ toString parts ++
      "; 2 is required"
  | .notPair parts =>
    if parts < 2 then "not enough values to unpack (expected 2, got " ++ toString parts ++ ")"
    else "too many values to unpack (expected 2)"
  | .emptyCall => "not enough values to unpack (expected at least 1, got 0)"
  | .embeddedNull => "embedded null byte"
  | .illegalVariable => "illegal environment variable name"
  | .tooLongToWrite => Text.beyondDigits ""

/-- What is reported: the cause itself if it can be worded, and otherwise what prevents that. -/
def reported (cause : Invalid) : Invalid :=
  if cause.message?.isSome then cause else .tooLongToWrite

end Invalid

/-- Why an operation fails. -/
inductive Fault where
  /-- An argument was examined and found wrong. -/
  | invalid (cause : Invalid)
  | malformedUri (value : Value) (flaw : Uri.Flaw)
  /-- An operation is not defined for a value of that kind. -/
  | unsuitable
  | missingPart
  /-- An object can no longer be changed. -/
  | unchangeable
  | outOfRange
  | namelessVariable
  | missingEntry
  /-- A setting has a value of the wrong kind. -/
  | invalidSetting
  /-- The text of a setting cannot be read. -/
  | unreadableSetting
  /-- Something is nested too deeply, or within itself. -/
  | tooDeep

def uriRefusal? (reason : String) (value : Value) : Option String := do
  return reason ++ ": " ++ (← value.literal?)

/-- The wording, for the faults that have one. -/
def Fault.message? : Fault → Option String
  | .invalid cause => cause.message?
  | .malformedUri value flaw => uriRefusal? flaw.message value
  | _ => none

/-- The fault of a value that is no uri. Showing it may fail like any wording. -/
def Fault.ofFlaw (value : Value) (flaw : Uri.Flaw) : Fault :=
  if value.literal?.isSome then .malformedUri value flaw else .invalid .tooLongToWrite

def refuse {α : Type} (cause : Invalid) : Except Fault α := .error (.invalid cause.reported)

theorem Fault.ofFlaw_cases (value : Value) (flaw : Uri.Flaw) :
    ofFlaw value flaw = .malformedUri value flaw ∨
      value.literal? = none ∧ ofFlaw value flaw = .invalid .tooLongToWrite := by
  rw [ofFlaw]
  cases value.literal? with
  | some s => exact .inl rfl
  | none => exact .inr ⟨rfl, rfl⟩

@[simp] theorem Fault.ofFlaw_text (w : Word) (flaw : Uri.Flaw) :
    ofFlaw (.text w) flaw = .malformedUri (.text w) flaw := rfl

/-- Whatever is reported can be worded. -/
theorem Invalid.isSome_message?_reported (cause : Invalid) : cause.reported.message?.isSome := by
  unfold reported
  split
  · assumption
  · rfl

end MediaBridge
