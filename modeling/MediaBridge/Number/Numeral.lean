import MediaBridge.Number.Double
import MediaBridge.Text.Blank
import MediaBridge.Text.Digit

/-!
# Numerals

Reading integers and double-precision numbers from text. Blanks around a numeral are ignored,
digits of every script count as digits, and single underscores may separate digits.
-/

namespace MediaBridge.Numeral

open MediaBridge.Text

/-- Replace each decimal digit by the one of ASCII. -/
def plainDigits (cs : List Char) : List Char :=
  cs.map fun c => match digitValue? c with
    | some d => Char.ofNat (48 + d)
    | none => c

/-- Drop underscores. Each must stand between two digits. The flag says that a digit precedes. -/
def dropUnderscores : (afterDigit : Bool) → List Char → Option (List Char)
  | _, [] => some []
  | afterDigit, '_' :: cs =>
    if afterDigit && (cs.head?.any Char.isDigit) then dropUnderscores false cs else none
  | _, c :: cs => (dropUnderscores c.isDigit cs).map (c :: ·)

/-- The characters of a numeral: trimmed and with plain digits. -/
def characters (s : String) : List Char := plainDigits (trimBy isNumeralBlank s.toList)

/-- Split off a sign, and say whether it is a minus. -/
def sign : List Char → Bool × List Char
  | '-' :: cs => (true, cs)
  | '+' :: cs => (false, cs)
  | cs => (false, cs)

/-- The digits at the front of a text and what follows them. -/
def digits (cs : List Char) : List Nat × List Char :=
  ((cs.takeWhile Char.isDigit).map (·.toNat - 48), cs.dropWhile Char.isDigit)

/-- The result of reading an integer. Numerals with too many digits are refused. -/
inductive IntegerReading where
  | value (n : Int)
  | malformed
  | tooLong (digits : Nat)
deriving DecidableEq

def isDigitOrUnderscore (c : Char) : Bool := c.isDigit || c == '_'

/-- Read an integer. The digits at the front are counted before what follows them is looked at. -/
def integer (s : String) : IntegerReading :=
  let (negative, cs) := sign (characters s)
  match dropUnderscores false (cs.takeWhile isDigitOrUnderscore) with
  | none | some [] => .malformed
  | some ds =>
    if maxDigits < ds.length then .tooLong ds.length
    else if !(cs.dropWhile isDigitOrUnderscore).isEmpty then .malformed
    else
      let n : Int := ofDigits (digits ds).1
      .value (if negative then -n else n)

/-- The exponent at the end of a numeral: nothing, or a mark with a signed integer. -/
def exponent? : List Char → Option Int
  | [] => some 0
  | c :: cs =>
    if c == 'e' || c == 'E' then
      let (negative, cs) := sign cs
      match digits cs with
      | (d :: ds, []) =>
        let n : Int := ofDigits (d :: ds)
        some (if negative then -n else n)
      | _ => none
    else none

/-- Read digits, a fraction and an exponent, without a sign. -/
def magnitude? (negative : Bool) (cs : List Char) : Option Double :=
  let (whole, rest) := digits cs
  let (fraction, rest) := match rest with
    | '.' :: cs => digits cs
    | cs => ([], cs)
  if whole.isEmpty && fraction.isEmpty then none
  else
    (exponent? rest).map fun e =>
      .ofDecimal negative (ofDigits (whole ++ fraction)) (e - fraction.length)

/-- Read a double-precision number. Besides decimals there are infinity and the not-a-number. -/
def double? (s : String) : Option Double := do
  let cs ← dropUnderscores false (characters s)
  let (negative, cs) := sign cs
  match String.ofList (cs.map Char.toLower) with
  | "inf" | "infinity" => some (.infinite negative)
  | "nan" => some (.nan 0)
  | _ => magnitude? negative cs

end MediaBridge.Numeral
