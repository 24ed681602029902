import MediaBridge.Number.Basic

/-!
# Ratings

A rating of the new schema: a style, and a value unless it is unrated. Hearts and thumbs have the
values zero and one, stars are counted, and percentages go to a hundred.
-/

namespace MediaBridge

/-- The value that stands for "not rated". -/
def notRated : Double := .finite true unitsPerOne

structure Rating where
  style : RatingStyle := .none
  value : Option Number := none
deriving DecidableEq

namespace Rating

def isRated (r : Rating) : Bool := r.value.isSome

def hasHeart (r : Rating) : Bool := r.style = .heart && r.value.any (·.equals 1)

def isThumbUp (r : Rating) : Bool := r.style = .thumbUpDown && r.value.any (·.equals 1)

/-- The value as a double-precision number, or the one that stands for "not rated". -/
def valueOrNotRated (r : Rating) : Double := (r.value.map Number.toDouble).getD notRated

def stars (r : Rating) : Double := if r.style.countsStars then r.valueOrNotRated else notRated

def percent (r : Rating) : Double :=
  if r.style = .percentage then r.valueOrNotRated else notRated

/-- Equal ratings have the same style and the same number as value, or no value. -/
def same (r r' : Rating) : Bool :=
  r.style = r'.style &&
    match r.value, r'.value with
    | none, none => true
    | some a, some b => a.same b
    | _, _ => false

end Rating

end MediaBridge
