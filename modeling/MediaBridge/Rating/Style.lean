/-!
# Rating styles

The styles of the two schemas. The new schema names its styles, the legacy schema numbers them;
`RatingStyle.toLegacy` and `LegacyStyle.toStyle` are inverse to each other.
-/

namespace MediaBridge

/-- The style of a rating in the new schema. -/
inductive RatingStyle where
  | none
  | heart
  | thumbUpDown
  | threeStars
  | fourStars
  | fiveStars
  | percentage
deriving DecidableEq, Inhabited

/-- The style of a rating in the legacy schema. -/
inductive LegacyStyle where
  | none
  | heart
  | thumbUpDown
  | threeStars
  | fourStars
  | fiveStars
  | percentage
deriving DecidableEq, Inhabited

namespace RatingStyle

def all : List RatingStyle :=
  [.none, .heart, .thumbUpDown, .threeStars, .fourStars, .fiveStars, .percentage]

def identifier : RatingStyle → String
  | .none => "none"
  | .heart => "heart"
  | .thumbUpDown => "thumb_up_down"
  | .threeStars => "three_stars"
  | .fourStars => "four_stars"
  | .fiveStars => "five_stars"
  | .percentage => "percentage"

def ofIdentifier? (s : String) : Option RatingStyle := all.find? (·.identifier = s)

def starCount? : RatingStyle → Option Nat
  | .threeStars => some 3
  | .fourStars => some 4
  | .fiveStars => some 5
  | _ => Option.none

/-- The number of stars of a star style, zero for every other style. -/
def starCount (s : RatingStyle) : Nat := s.starCount?.getD 0

def countsStars (s : RatingStyle) : Bool := s.starCount?.isSome

/-- The style of the legacy schema with the same meaning. -/
def toLegacy : RatingStyle → LegacyStyle
  | .none => .none
  | .heart => .heart
  | .thumbUpDown => .thumbUpDown
  | .threeStars => .threeStars
  | .fourStars => .fourStars
  | .fiveStars => .fiveStars
  | .percentage => .percentage

theorem mem_all (s : RatingStyle) : s ∈ all := by cases s <;> decide

theorem ofIdentifier?_identifier (s : RatingStyle) : ofIdentifier? s.identifier = some s := by
  cases s <;> decide

end RatingStyle

namespace LegacyStyle

def all : List LegacyStyle :=
  [.none, .heart, .thumbUpDown, .threeStars, .fourStars, .fiveStars, .percentage]

def identifier : LegacyStyle → String
  | .none => "NONE"
  | .heart => "HEART"
  | .thumbUpDown => "THUMB_UP_DOWN"
  | .threeStars => "THREE_STARS"
  | .fourStars => "FOUR_STARS"
  | .fiveStars => "FIVE_STARS"
  | .percentage => "PERCENTAGE"

def number : LegacyStyle → Int
  | .none => 0
  | .heart => 1
  | .thumbUpDown => 2
  | .threeStars => 3
  | .fourStars => 4
  | .fiveStars => 5
  | .percentage => 6

def ofNumber? (n : Int) : Option LegacyStyle := all.find? (·.number = n)

/-- The style of the new schema with the same meaning. -/
def toStyle : LegacyStyle → RatingStyle
  | .none => .none
  | .heart => .heart
  | .thumbUpDown => .thumbUpDown
  | .threeStars => .threeStars
  | .fourStars => .fourStars
  | .fiveStars => .fiveStars
  | .percentage => .percentage

def starCount? (s : LegacyStyle) : Option Nat := s.toStyle.starCount?

theorem mem_all (s : LegacyStyle) : s ∈ all := by cases s <;> decide

theorem ofNumber?_number (s : LegacyStyle) : ofNumber? s.number = some s := by
  cases s <;> decide

theorem number_of_ofNumber? {n : Int} {s : LegacyStyle} (h : ofNumber? n = some s) :
    s.number = n := by
  simpa using List.find?_some h

@[simp] theorem toLegacy_toStyle (s : LegacyStyle) : s.toStyle.toLegacy = s := by cases s <;> rfl

end LegacyStyle

@[simp] theorem RatingStyle.toStyle_toLegacy (s : RatingStyle) : s.toLegacy.toStyle = s := by
  cases s <;> rfl

end MediaBridge
