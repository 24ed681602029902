import MediaBridge.Logging.Traced
import MediaBridge.Rating.Build

/-!
# Conversion of ratings

Ratings of the new schema become legacy ratings of the corresponding style, and back. A legacy
rating of an unknown style has no counterpart and is dropped with a record.
-/

namespace MediaBridge

def ratingLogger : String := "mediacompat.mappers.rating"

/-- Report that a rating is dropped because of its style. -/
def reportDroppedRating (problem style : String) : Traced Unit :=
  .report ratingLogger (problem ++ " rating style " ++ style ++ ", rating dropped")

def Rating.toLegacy (r : Rating) : Traced (Option LegacyRating) := do
  let style := r.style.toLegacy
  if !r.isRated then return some ⟨.plain style.number, notRated⟩
  else
    match r.style with
    | .threeStars | .fourStars | .fiveStars =>
      return some (← LegacyRating.star (.whole (.style style)) (.real r.stars))
    | .heart => return some (.heart (.bool r.hasHeart))
    | .thumbUpDown => return some (.thumb (.bool r.isThumbUp))
    | .percentage => return some (← LegacyRating.percentage (.real r.percent))
    | .none =>
      reportDroppedRating "unsupported" r.style.identifier
      return none

def LegacyRating.toRating (r : LegacyRating) : Traced (Option Rating) :=
  match r.style.style? with
  | none => do
    reportDroppedRating "unknown legacy" (toString r.style.toInt)
    return none
  | some legacyStyle => do
    let style := legacyStyle.toStyle
    let value : Value := .text (.term (.style style))
    if !r.isRated then return some ⟨style, none⟩
    else
      match style with
      | .threeStars | .fourStars | .fiveStars =>
        return some (← Rating.star value (.real r.stars))
      | .heart => return some (.heart (.bool r.hasHeart))
      | .thumbUpDown => return some (.thumb (.bool r.isThumbUp))
      | .percentage => return some (← Rating.percentage (.real r.percent))
      | .none =>
        reportDroppedRating "unsupported" style.identifier
        return none

end MediaBridge
