/-!
# Double-precision numbers

Binary floating point with 53 significant bits, exactly: a finite number is a whole multiple of
`2 ^ -1074`, the smallest positive one, so that comparison and rounding are integer arithmetic.
`Double.nearest_eq` says that integers below `2 ^ 53` are converted without rounding.
-/

namespace MediaBridge

/-! ## Powers of two -/

def twoPow (n : Nat) : Nat := Nat.pow 2 n

theorem twoPow_pos (n : Nat) : 0 < twoPow n := Nat.two_pow_pos n

theorem twoPow_add (m n : Nat) : twoPow (m + n) = twoPow m * twoPow n := Nat.pow_add 2 m n

theorem twoPow_le {m n : Nat} (h : m ≤ n) : twoPow m ≤ twoPow n :=
  Nat.pow_le_pow_right Nat.two_pos h

theorem twoPow_dvd {m n : Nat} (h : m ≤ n) : twoPow m ∣ twoPow n := Nat.pow_dvd_pow 2 h

theorem log2_eq_iff {n k : Nat} (hn : n ≠ 0) :
    n.log2 = k ↔ twoPow k ≤ n ∧ n < twoPow (k + 1) := Nat.log2_eq_iff hn

/-! ## Numbers -/

/-- The smallest positive number is `2 ^ -1074`. -/
def unitBits : Nat := 1074

/-- The units in one: finite numbers count multiples of `2 ^ -1074`. -/
def unitsPerOne : Nat := twoPow unitBits

/-- The least number of units that is out of range: the units in `2 ^ 1024`. -/
def unitsLimit : Nat := twoPow (1024 + unitBits)

/-- A double-precision number. The payload of a not-a-number tells one from another. -/
inductive Double where
  | nan (payload : Nat)
  | infinite (negative : Bool)
  | finite (negative : Bool) (units : Nat)
deriving DecidableEq, Inhabited

/-- A place on the number line with both ends, finite places being counted in units. -/
inductive Position where
  | bottom
  | point (units : Int)
  | top
deriving DecidableEq

def Position.lt : Position → Position → Bool
  | .bottom, .bottom => false
  | .bottom, _ => true
  | .point _, .bottom => false
  | .point a, .point b => a < b
  | .point _, .top => true
  | .top, _ => false

def Position.ofInt (n : Int) : Position := .point (n * unitsPerOne)

/-! ## Rounding -/

/-- A quotient rounded to the nearest integer, a half going to the even neighbour. -/
def roundHalfEven (num den : Nat) : Nat :=
  let q := num / den
  let r := num % den
  if 2 * r < den then q else if den < 2 * r then q + 1 else q + q % 2

theorem roundHalfEven_mul {den : Nat} (hden : 0 < den) (q : Nat) :
    roundHalfEven (q * den) den = q := by
  simp [roundHalfEven, Nat.mul_div_cancel _ hden, hden]

/-- The number of bits by which a magnitude exceeds 53. -/
def excessBits (units : Nat) : Nat := units.log2 - 52

/-- The multiple of a unit with at most 53 significant bits nearest to a quotient of units. -/
def nearestUnits (num den : Nat) : Nat :=
  let scale := twoPow (excessBits (num / den))
  roundHalfEven num (den * scale) * scale

theorem nearestUnits_of_dvd {num scale : Nat} (hscale : scale = twoPow (excessBits num))
    (h : scale ∣ num) : nearestUnits num 1 = num := by
  have hpos : 0 < scale := hscale ▸ twoPow_pos _
  obtain ⟨q, rfl⟩ := h
  simp only [nearestUnits, Nat.div_one, Nat.one_mul, ← hscale]
  rw [Nat.mul_comm scale q, roundHalfEven_mul hpos]

namespace Double

/-- The number nearest to a quotient of units, infinite if that is out of range. -/
def ofUnits (negative : Bool) (num den : Nat) : Double :=
  let units := nearestUnits num den
  if units < unitsLimit then .finite negative units else .infinite negative

/-- The number nearest to an integer. -/
def nearest (n : Int) : Double := ofUnits (n < 0) (n.natAbs * unitsPerOne) 1

def finite? : Double → Option Double
  | .finite negative units => some (.finite negative units)
  | _ => none

/-- The number nearest to an integer, if that is in range. -/
def ofInt? (n : Int) : Option Double := (nearest n).finite?

/-- The number nearest to `m * 10 ^ e`. Far out of range the power is not computed. -/
def ofDecimal (negative : Bool) (m : Nat) (e : Int) : Double :=
  if m = 0 then .finite negative 0
  else
    let size := (Nat.toDigits 10 m).length + e
    if 310 < size then .infinite negative
    else if size < -330 then .finite negative 0
    else ofUnits negative (m * Nat.pow 10 e.toNat * unitsPerOne) (Nat.pow 10 (-e).toNat)

def zero : Double := .finite false 0

def one : Double := .finite false unitsPerOne

/-- The place of a number, none for a not-a-number. -/
def position? : Double → Option Position
  | .nan _ => none
  | .infinite negative => some (if negative then .bottom else .top)
  | .finite negative units => some (.point (if negative then -units else units))

/-- Whether a number is zero, of either sign. -/
def isZero : Double → Bool
  | .finite _ units => units == 0
  | _ => false

/-- The integer part of a finite number. -/
def truncate? : Double → Option Int
  | .finite negative units =>
    let n : Int := (units / unitsPerOne : Nat)
    some (if negative then -n else n)
  | _ => none

theorem unitsPerOne_pos : 0 < unitsPerOne := twoPow_pos unitBits

theorem log2_mul_unitsPerOne {n : Nat} (hn : n ≠ 0) :
    (n * unitsPerOne).log2 = n.log2 + unitBits := by
  have h := (log2_eq_iff hn).1 rfl
  refine (log2_eq_iff (Nat.mul_ne_zero hn (Nat.ne_of_gt unitsPerOne_pos))).2 ⟨?_, ?_⟩
  · rw [twoPow_add, ← unitsPerOne]; exact Nat.mul_le_mul_right _ h.1
  · rw [Nat.add_right_comm, twoPow_add, ← unitsPerOne]
    exact Nat.mul_lt_mul_of_pos_right h.2 unitsPerOne_pos

/-- An integer of at most 53 bits is converted without rounding. -/
theorem nearest_eq {n : Int} (h : n.natAbs < twoPow 53) :
    nearest n = .finite (n < 0) (n.natAbs * unitsPerOne) := by
  have hu : nearestUnits (n.natAbs * unitsPerOne) 1 = n.natAbs * unitsPerOne := by
    refine nearestUnits_of_dvd rfl ?_
    by_cases h0 : n.natAbs = 0
    · simp [h0]
    · rw [excessBits, log2_mul_unitsPerOne h0]
      have := (Nat.log2_lt h0).2 h
      refine Nat.dvd_trans ?_ (Nat.dvd_mul_left _ _)
      exact twoPow_dvd (by omega)
  have hlt : n.natAbs * unitsPerOne < unitsLimit := by
    calc n.natAbs * unitsPerOne < twoPow 53 * unitsPerOne :=
          Nat.mul_lt_mul_of_pos_right h unitsPerOne_pos
      _ ≤ unitsLimit := by
          rw [unitsPerOne, unitsLimit, ← twoPow_add]
          exact twoPow_le (Nat.add_le_add_right (by decide) _)
  simp [nearest, ofUnits, hu, hlt]

end Double

end MediaBridge
