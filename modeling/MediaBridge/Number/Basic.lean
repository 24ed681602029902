import MediaBridge.Number.Double
import MediaBridge.Rating.Style

/-!
# Numbers

Integers of any size and double-precision numbers, compared exactly. An integer may be a member of
the legacy styles, which is the number it stands for in every respect but its literal.
-/

namespace MediaBridge

/-- An integer, plain or a member of the legacy styles. -/
inductive Whole where
  | plain (n : Int)
  | style (s : LegacyStyle)
deriving DecidableEq

namespace Whole

def toInt : Whole → Int
  | .plain n => n
  | .style s => s.number

@[simp] theorem toInt_plain (n : Int) : (plain n).toInt = n := rfl

def style? (n : Whole) : Option LegacyStyle := LegacyStyle.ofNumber? n.toInt

end Whole

instance : Inhabited Whole := ⟨.plain 0⟩

inductive Number where
  | whole (n : Whole)
  | real (x : Double)
deriving DecidableEq

namespace Number

def ofInt (n : Int) : Number := .whole (.plain n)

/-- The place of a number, none for a not-a-number. -/
def position? : Number → Option Position
  | .whole n => some (.ofInt n.toInt)
  | .real x => x.position?

/-- Whether one number is less than another. A not-a-number is neither less nor greater than
anything. -/
def lt (a b : Number) : Bool :=
  match a.position?, b.position? with
  | some p, some q => p.lt q
  | _, _ => false

/-- Whether two numbers have the same value. A not-a-number has none. -/
def equal (a b : Number) : Bool :=
  match a.position?, b.position? with
  | some p, some q => p = q
  | _, _ => false

/-- Whether two numbers are the same part of a larger value: they are equal, or one and the same
not-a-number. -/
def same : Number → Number → Bool
  | .real (.nan payload), .real (.nan payload') => payload = payload'
  | a, b => a.equal b

def below (a : Number) (n : Int) : Bool := a.lt (.ofInt n)

def above (a : Number) (n : Int) : Bool := (Number.ofInt n).lt a

def equals (a : Number) (n : Int) : Bool := a.equal (.ofInt n)

/-- The nearest double-precision number, infinite if that is out of range. -/
def toDouble : Number → Double
  | .whole n => .nearest n.toInt
  | .real x => x

/-- The nearest double-precision number, if the number is in range. -/
def toDouble? : Number → Option Double
  | .whole n => Double.ofInt? n.toInt
  | .real x => some x

end Number

end MediaBridge
