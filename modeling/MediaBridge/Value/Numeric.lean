import MediaBridge.Fault
import MediaBridge.Number.Numeral
import MediaBridge.Value.Key

/-!
# Values as numbers

Comparison of a value with an integer, and conversion of a value to a number. Truth values and
numbers are converted by value, texts are read, and anything else is unsuitable.
-/

namespace MediaBridge.Value

def isBelow (v : Value) (n : Int) : Except Fault Bool :=
  match v.number? with
  | some a => .ok (a.below n)
  | Option.none => .error .unsuitable

/-- Convert a value to a double-precision number. The not-a-number that a text may stand for is
given, for each one that is read is another one. -/
def toDouble (v : Value) (nan : Double := .nan 0) : Except Fault Double :=
  match v with
  | .text w =>
    match Numeral.double? w.text with
    | some (.nan _) => .ok nan
    | some x => .ok x
    | Option.none => refuse (.notDouble v)
  | _ =>
    match v.number? with
    | Option.none => .error .unsuitable
    | some a =>
      match a.toDouble? with
      | some x => .ok x
      | Option.none => .error .outOfRange

/-- Convert a value to an integer. Double-precision numbers lose their fraction. -/
def toInteger (v : Value) : Except Fault Int :=
  match v with
  | .text w =>
    match Numeral.integer w.text with
    | .value n => .ok n
    | .malformed => refuse (.notInteger v)
    | .tooLong digits => refuse (.integerTooLong digits)
  | .real (.nan _) => refuse .nanToInteger
  | .real x =>
    match x.truncate? with
    | some n => .ok n
    | Option.none => .error .outOfRange
  | .bool b => .ok (if b then 1 else 0)
  | .whole n => .ok n.toInt
  | _ => .error .unsuitable

/-- A truth value as the number that stands for it in ratings. -/
def flag (v : Value) : Double := if v.isTruthy then .one else .zero

end MediaBridge.Value
