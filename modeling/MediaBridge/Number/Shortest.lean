import MediaBridge.Number.Double

/-!
# Shortest decimals

A finite number is written with the fewest significant digits that read back as it, of those the
nearest ones, positionally in the middle range and with an exponent outside it.
-/

namespace MediaBridge

/-- The numbers of quarter units between which a decimal reads back as the given magnitude. -/
structure ReadingRange where
  low : Nat
  high : Nat
  closed : Bool

namespace ReadingRange

/-- The range around a magnitude: half way to its neighbours, the lower of which is nearer at a
power of two. The ends read back if the last significant bit is clear. -/
def around (units : Nat) : ReadingRange :=
  let step := twoPow (excessBits units)
  let nearBelow := units == twoPow 52 * step && step != 1
  { low := 4 * units - (if nearBelow then step else 2 * step)
    high := 4 * units + 2 * step
    closed := (units / step) % 2 == 0 }

def contains (r : ReadingRange) (num den : Nat) : Bool :=
  if r.closed then r.low * den ≤ 4 * num && 4 * num ≤ r.high * den
  else r.low * den < 4 * num && 4 * num < r.high * den

end ReadingRange

/-- A decimal `digits * 10 ^ exponent`. -/
structure Decimal where
  digits : Nat
  exponent : Int

namespace Decimal

def inUnits (d : Decimal) : Nat × Nat :=
  (d.digits * Nat.pow 10 d.exponent.toNat * unitsPerOne, Nat.pow 10 (-d.exponent).toNat)

/-- Move zeros at the end of the digits into the exponent. -/
def normalize : (fuel : Nat) → Decimal → Decimal
  | 0, d => d
  | fuel + 1, d =>
    if d.digits ≠ 0 && d.digits % 10 == 0 then normalize fuel ⟨d.digits / 10, d.exponent + 1⟩ else d

/-- Whether the lower of the two decimals around a magnitude is the nearer one, or as near and
even. -/
def isPreferred (units : Nat) (a b : Decimal) : Bool :=
  let (numA, den) := a.inUnits
  let (numB, _) := b.inUnits
  let below := units * den - numA
  let above := numB - units * den
  below < above || (below == above && a.digits % 2 == 0)

/-- The decimal on the grid of `10 ^ exponent` that reads back as the magnitude, if there is one:
of the neighbours of the magnitude on that grid the nearer one in range. -/
def onGrid? (units : Nat) (exponent : Int) : Option Decimal :=
  let floor := units * Nat.pow 10 (-exponent).toNat / (unitsPerOne * Nat.pow 10 exponent.toNat)
  let range := ReadingRange.around units
  let reads (d : Decimal) : Bool := range.contains d.inUnits.1 d.inUnits.2
  let a : Decimal := ⟨floor, exponent⟩
  let b : Decimal := ⟨floor + 1, exponent⟩
  if reads a && (!reads b || isPreferred units a b) then some a
  else if reads b then some b
  else none

/-- The exponent of the first significant digit below one: the least power of ten that takes the
magnitude to one or more. -/
def negativeExponent (units : Nat) : (fuel : Nat) → Nat → Nat
  | 0, p => p
  | fuel + 1, p =>
    if unitsPerOne ≤ units * Nat.pow 10 p then p else negativeExponent units fuel (p + 1)

/-- The exponent of the first significant digit of a magnitude other than zero. -/
def leadingExponent (units : Nat) : Int :=
  let n := units / unitsPerOne
  if n = 0 then -(negativeExponent units 330 1 : Nat)
  else ((Nat.toDigits 10 n).length : Int) - 1

/-- The shortest decimal that reads back as a magnitude other than zero. Seventeen digits always
suffice. -/
def shortest (units : Nat) : Decimal :=
  let lead := leadingExponent units
  let grids := (List.range 17).map fun (k : Nat) => lead - k
  let d := (grids.findSome? (onGrid? units)).getD ⟨units, 0⟩
  normalize 17 d

/-- How a decimal is laid out: positionally for leading exponents from `positionalFrom` up to but
not including `positionalBelow`, with an exponent of at least `exponentWidth` digits outside. -/
structure Layout where
  positionalFrom : Int
  positionalBelow : Int
  exponentWidth : Nat

def standardLayout : Layout := ⟨-4, 16, 2⟩

/-- The exponent mark with sign and digits. -/
def exponentText (width : Nat) (e : Int) : List Char :=
  let ds := Nat.toDigits 10 e.natAbs
  'e' :: (if e < 0 then '-' else '+') :: List.replicate (width - ds.length) '0' ++ ds

/-- Write a decimal. A positional one has at least one digit after the point. -/
def write (layout : Layout) (d : Decimal) : List Char :=
  let ds := Nat.toDigits 10 d.digits
  let lead : Int := ds.length + d.exponent - 1
  if lead < layout.positionalFrom || layout.positionalBelow ≤ lead then
    let tail := ds.drop 1
    ds.take 1 ++ (if tail.isEmpty then [] else '.' :: tail) ++
      exponentText layout.exponentWidth lead
  else if lead < 0 then
    '0' :: '.' :: List.replicate ((-lead).toNat - 1) '0' ++ ds
  else if 0 ≤ d.exponent then
    ds ++ List.replicate d.exponent.toNat '0' ++ ['.', '0']
  else
    ds.take (lead.toNat + 1) ++ '.' :: ds.drop (lead.toNat + 1)

end Decimal

def Double.toText : Double → String
  | .nan _ => "nan"
  | .infinite negative => if negative then "-inf" else "inf"
  | .finite negative units =>
    let body := if units = 0 then ['0', '.', '0']
      else (Decimal.shortest units).write Decimal.standardLayout
    String.ofList (if negative then '-' :: body else body)

end MediaBridge
