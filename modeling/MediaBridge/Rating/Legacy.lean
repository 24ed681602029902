import MediaBridge.Rating.Basic

/-!
# Legacy ratings

A rating of the legacy schema: a number for the style, which need not be one of the known ones,
and a value that is negative while the rating is unrated.
-/

namespace MediaBridge

structure LegacyRating where
  style : Whole := .style .none
  value : Double := notRated
deriving DecidableEq

namespace LegacyRating

/-- Whether the value stands for a rating. A not-a-number does not. -/
def isRated (r : LegacyRating) : Bool :=
  let value := Number.real r.value
  value.above 0 || value.equals 0

def hasHeart (r : LegacyRating) : Bool :=
  r.style.style? = some .heart && (Number.real r.value).equals 1

def isThumbUp (r : LegacyRating) : Bool :=
  r.style.style? = some .thumbUpDown && (Number.real r.value).equals 1

def starCount? (r : LegacyRating) : Option Nat := r.style.style?.bind LegacyStyle.starCount?

def stars (r : LegacyRating) : Double :=
  if r.starCount?.isSome && r.isRated then r.value else notRated

def percent (r : LegacyRating) : Double :=
  if r.style.style? = some .percentage && r.isRated then r.value else notRated

/-- Equal ratings have the same style number and the same number as value. -/
def same (r r' : LegacyRating) : Bool :=
  r.style.toInt = r'.style.toInt && (Number.real r.value).same (.real r'.value)

end LegacyRating

end MediaBridge
