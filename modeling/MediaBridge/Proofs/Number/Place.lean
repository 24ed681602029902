import MediaBridge.Rating.Build

/-!
# The place of a number

Every comparison of numbers is one of their places, so that numbers at one place pass the same
checks. A small integer has the place of the double-precision number it is converted to
(`position?_toDouble`), and only a not-a-number has no place (`position?_eq_none_iff`).
-/

namespace MediaBridge

/-! ## The order of places -/

namespace Position

theorem ofInt_lt_ofInt (m n : Int) : (ofInt m).lt (ofInt n) = decide (m < n) := by
  have hpos : (0 : Int) < unitsPerOne := Int.natCast_pos.2 Double.unitsPerOne_pos
  simp only [ofInt, Position.lt]
  generalize (unitsPerOne : Int) = units at hpos
  rw [decide_eq_decide]
  exact Int.mul_lt_mul_right hpos

theorem ofInt_inj {m n : Int} : ofInt m = ofInt n ↔ m = n := by
  have hpos : (unitsPerOne : Int) ≠ 0 :=
    Int.natCast_ne_zero.2 (Nat.ne_of_gt Double.unitsPerOne_pos)
  simp only [ofInt, Position.point.injEq]
  exact Int.mul_eq_mul_right_iff hpos

/-- A place is not below another one if it is above it or it is that place. -/
theorem lt_eq_false_iff {p q : Position} : p.lt q = false ↔ q.lt p = true ∨ p = q := by
  cases p with
  | point a =>
    cases q with
    | point b =>
      simp only [Position.lt, decide_eq_false_iff_not, decide_eq_true_eq, Position.point.injEq]
      omega
    | bottom | top => simp [Position.lt]
  | bottom | top => cases q <;> simp [Position.lt]

end Position

namespace Number

variable {a b : Number} {n : Int}

/-- Whether a number is a not-a-number. -/
def isNan : Number → Bool
  | .real (.nan _) => true
  | _ => false

theorem position?_eq_none_iff : a.position? = none ↔ a.isNan := by
  cases a with
  | whole n => simp [position?, isNan]
  | real x => cases x <;> simp [position?, Double.position?, isNan]

theorem isNan_congr (h : a.position? = b.position?) : a.isNan = b.isNan := by
  rw [Bool.eq_iff_iff, ← position?_eq_none_iff, ← position?_eq_none_iff, h]

theorem position?_ofInt (n : Int) : (ofInt n).position? = some (.ofInt n) := rfl

/-! ## Comparisons -/

theorem below_congr (h : a.position? = b.position?) : a.below n = b.below n := by
  rw [below, below, lt, lt, h]

theorem above_congr (h : a.position? = b.position?) : a.above n = b.above n := by
  rw [above, above, lt, lt, h]

theorem equals_congr (h : a.position? = b.position?) : a.equals n = b.equals n := by
  rw [equals, equals, equal, equal, h]

theorem isZeroOrOne_congr (h : a.position? = b.position?) : a.isZeroOrOne = b.isZeroOrOne := by
  rw [isZeroOrOne, isZeroOrOne, equals_congr h, equals_congr h]

theorem isOutside_congr {bound : Nat} (h : a.position? = b.position?) :
    a.isOutside bound = b.isOutside bound := by
  rw [isOutside, isOutside, below_congr h, above_congr h]

theorem equals_iff : a.equals n ↔ a.position? = some (.ofInt n) := by
  rw [equals, equal, position?_ofInt]
  cases a.position? with
  | none => simp
  | some p => simp

theorem below_eq_false_iff : a.below n = false ↔
    ∀ p ∈ a.position?, p.lt (.ofInt n) = false := by
  rw [below, lt, position?_ofInt]
  cases a.position? with
  | none => simp
  | some p => simp

/-- Whether a number is an integer or greater than it. -/
def AtLeast (a : Number) (n : Int) : Prop := a.above n ∨ a.equals n

/-- Whether a number is an integer or less than it. -/
def AtMost (a : Number) (n : Int) : Prop := a.below n ∨ a.equals n

-- a not-a-number is not below an integer, but it is not above it or equal to it either
theorem atLeast_iff : a.AtLeast n ↔ a.isNan = false ∧ a.below n = false := by
  rw [AtLeast, equals_iff, above, below, lt, lt, position?_ofInt, ← Bool.not_eq_true a.isNan,
    ← position?_eq_none_iff]
  cases a.position? with
  | none => simp
  | some p => simp [Position.lt_eq_false_iff]

theorem atMost_iff : a.AtMost n ↔ a.isNan = false ∧ a.above n = false := by
  rw [AtMost, equals_iff, above, below, lt, lt, position?_ofInt, ← Bool.not_eq_true a.isNan,
    ← position?_eq_none_iff]
  cases a.position? with
  | none => simp
  | some p => simp [Position.lt_eq_false_iff, @eq_comm _ p]

/-- Numbers at one place are the same part of a larger value. -/
theorem same_of_position (ha : a.isNan = false) (h : a.position? = b.position?) :
    a.same b = true := by
  have hequal : a.equal b = true := by
    rw [equal, ← h]
    cases hp : a.position? with
    | none =>
      rw [position?_eq_none_iff, ha] at hp
      cases hp
    | some p => simp
  unfold same
  split
  · cases ha
  · exact hequal

theorem same_eq_false_of_isNan (ha : a.isNan = false) (hb : b.isNan) : a.same b = false := by
  have hequal : a.equal b = false := by
    rw [equal, position?_eq_none_iff.2 hb]
    cases a.position? <;> rfl
  unfold same
  split
  · cases ha
  · exact hequal

/-! ## Zero and one -/

theorem position?_zero : (Number.real .zero).position? = some (.ofInt 0) := by
  rw [Position.ofInt, Int.zero_mul]
  rfl

theorem position?_one : (Number.real .one).position? = some (.ofInt 1) := by
  rw [Position.ofInt, Int.one_mul]
  rfl

theorem isZeroOrOne_iff : a.isZeroOrOne ↔
    a.position? = some (.ofInt 0) ∨ a.position? = some (.ofInt 1) := by
  rw [isZeroOrOne, Bool.or_eq_true, equals_iff, equals_iff]

/-- Zero and one are told apart by a comparison with one. -/
theorem position?_flag (h : a.isZeroOrOne) :
    (Number.real (Value.bool (a.equals 1)).flag).position? = a.position? := by
  unfold Value.flag
  by_cases h1 : a.equals 1
  · rw [h1, equals_iff.1 h1]
    exact position?_one
  · have h0 := (isZeroOrOne_iff.1 h).resolve_right (mt equals_iff.2 h1)
    rw [Bool.eq_false_iff.2 h1, h0]
    exact position?_zero

theorem isZeroOrOne_flag (v : Value) : (Number.real v.flag).isZeroOrOne := by
  rw [isZeroOrOne_iff]
  unfold Value.flag
  split
  · exact .inr position?_one
  · exact .inl position?_zero

theorem equals_one_flag (v : Value) : (Number.real v.flag).equals 1 = v.isTruthy := by
  rw [Bool.eq_iff_iff, equals_iff]
  unfold Value.flag
  cases v.isTruthy with
  | true => exact iff_of_true position?_one rfl
  | false => simp [position?_zero, Position.ofInt_inj]

/-! ## Not rated -/

theorem position?_notRated : (Number.real notRated).position? = some (.ofInt (-1)) := by
  rw [Position.ofInt, Int.neg_one_mul]
  rfl

/-! ## Conversion -/

theorem of_isOutside_eq_false {n : Whole} {bound : Nat}
    (h : (Number.whole n).isOutside bound = false) : 0 ≤ n.toInt ∧ n.toInt ≤ bound := by
  have hpos : (0 : Int) < unitsPerOne := Int.natCast_pos.2 Double.unitsPerOne_pos
  simp only [isOutside, below, above, lt, position?, ofInt, Whole.toInt_plain, Position.ofInt,
    Position.lt, Bool.or_eq_false_iff, decide_eq_false_iff_not, Int.not_lt, Int.zero_mul] at h
  -- the number of units is too large to be looked into
  generalize (unitsPerOne : Int) = units at h hpos
  constructor
  · exact Int.nonneg_of_mul_nonneg_left h.1 hpos
  · exact Int.le_of_mul_le_mul_right h.2 hpos

theorem position?_nearest {n : Int} (h0 : 0 ≤ n) (hn : n.natAbs < twoPow 53) :
    (Double.nearest n).position? = some (.ofInt n) := by
  rw [Double.nearest_eq hn, Double.position?, Position.ofInt]
  generalize unitsPerOne = units
  have hneg : decide (n < 0) = false := by simpa using h0
  rw [hneg, if_neg (by decide), Int.natCast_mul, Int.natAbs_of_nonneg h0]

/-- A number in the range of a style has the place of the double-precision number nearest to it. -/
theorem position?_toDouble {bound : Nat} (hbound : bound < twoPow 53)
    (h : a.isOutside bound = false) : (Number.real a.toDouble).position? = a.position? := by
  cases a with
  | real x => rfl
  | whole n =>
    obtain ⟨h0, hle⟩ := of_isOutside_eq_false h
    have habs : n.toInt.natAbs < twoPow 53 := Nat.lt_of_le_of_lt (by omega) hbound
    change (Double.nearest n.toInt).position? = some (.ofInt n.toInt)
    exact position?_nearest h0 habs

end Number

end MediaBridge
