import MediaBridge.Value.Numeric

/-!
# Building ratings

Ratings of both schemas from values of any kind. What is built is in the range of its style.
-/

namespace MediaBridge

def Number.isZeroOrOne (a : Number) : Bool := a.equals 0 || a.equals 1

/-- Whether a number is less than zero or greater than a bound. -/
def Number.isOutside (a : Number) (bound : Nat) : Bool := a.below 0 || a.above bound

namespace Rating

def styleOf (style : Value) : Except Fault RatingStyle :=
  match style.text?.bind RatingStyle.ofIdentifier? with
  | some s => .ok s
  | none => refuse (.noSuchStyle style)

/-- A rated rating, if the value is in the range of the style. -/
def rated (style : RatingStyle) (value : Number) : Except Fault Rating :=
  match style with
  | .none => refuse .valueWithoutStyle
  | .heart | .thumbUpDown =>
    if value.isZeroOrOne then .ok ⟨style, some value⟩ else refuse (.notZeroOrOne style)
  | .threeStars | .fourStars | .fiveStars =>
    if value.isOutside style.starCount then refuse (.starsOutOfRange style.starCount)
    else .ok ⟨style, some value⟩
  | .percentage =>
    if value.isOutside 100 then refuse .percentageOutOfRange else .ok ⟨style, some value⟩

/-- A rating of a style and a value as they are. The style must be a member of the styles, and a
truth value is not a number here. -/
def ofValues (style value : Value) : Except Fault Rating :=
  match style with
  | .text (.term (.style s)) =>
    match value with
    | .none => .ok ⟨s, none⟩
    | .whole n => rated s (.whole n)
    | .real x => rated s (.real x)
    | _ => if s = .none then refuse .valueWithoutStyle else refuse .ratingNotNumber
  | _ => refuse (.notStyle style)

def unrated (style : Value) : Except Fault Rating := do
  return ⟨← styleOf style, none⟩

def heart (given : Value) : Rating := ⟨.heart, some (.real given.flag)⟩

def thumb (up : Value) : Rating := ⟨.thumbUpDown, some (.real up.flag)⟩

/-- A number of stars. The not-a-number that a text may stand for is given. -/
def star (style stars : Value) (nan : Double := .nan 0) : Except Fault Rating := do
  let s ← styleOf style
  if s.countsStars then rated s (.real (← stars.toDouble nan)) else refuse (.notStarStyle s)

/-- A percentage. The not-a-number that a text may stand for is given. -/
def percentage (percent : Value) (nan : Double := .nan 0) : Except Fault Rating := do
  rated .percentage (.real (← percent.toDouble nan))

end Rating

namespace LegacyRating

/-- A rating, if the value is in the range of the style. Negative values all stand for "not
rated", and an unknown style has no upper bound. -/
def ofDouble (style : Whole) (value : Double) : Except Fault LegacyRating :=
  let number := Number.real value
  if number.below 0 then .ok ⟨style, notRated⟩
  else
    let rating : LegacyRating := ⟨style, value⟩
    match style.style? with
    | some .heart | some .thumbUpDown =>
      if number.isZeroOrOne then .ok rating else refuse .legacyNotZeroOrOne
    | some .percentage =>
      if number.above 100 then refuse .percentageOutOfRange else .ok rating
    | _ =>
      match rating.starCount? with
      | some stars => if number.above stars then refuse (.starsOutOfRange stars) else .ok rating
      | none => .ok rating

/-- A rating of a style and a value as they are. Truth values are not numbers here. -/
def ofValues (style value : Value) : Except Fault LegacyRating :=
  match style with
  | .whole s =>
    match value with
    | .whole _ | .real _ => do ofDouble s (← value.toDouble)
    | _ => refuse .legacyRatingNotNumber
  | _ => refuse (.legacyStyleNotInt style)

def unrated (style : Value) : Except Fault LegacyRating := do
  return ⟨.plain (← style.toInteger), notRated⟩

def heart (given : Value) : LegacyRating := ⟨.style .heart, given.flag⟩

def thumb (up : Value) : LegacyRating := ⟨.style .thumbUpDown, up.flag⟩

/-- The style whose number a value is. -/
def styleOf? (style : Value) : Option LegacyStyle :=
  LegacyStyle.all.find? fun s => style.code? = some (.ofInt s.number)

/-- The member of the styles whose number a value is. -/
def styleOf (style : Value) : Except Fault LegacyStyle :=
  match styleOf? style with
  | some s => .ok s
  | none => refuse (.noSuchLegacyStyle style)

def star (style stars : Value) : Except Fault LegacyRating :=
  if !style.canBeKey then .error .unsuitable
  else
    match (styleOf? style).filter (·.starCount?.isSome) with
    | none => refuse (.unknownStarStyle style)
    | some s => do
      if ← stars.isBelow 0 then refuse .negativeStars
      else ofDouble (.plain s.number) (← stars.toDouble)

def percentage (percent : Value) : Except Fault LegacyRating := do
  if ← percent.isBelow 0 then refuse .negativePercentage
  else ofDouble (.style .percentage) (← percent.toDouble)

end LegacyRating

end MediaBridge
