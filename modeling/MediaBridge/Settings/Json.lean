import MediaBridge.Number.Numeral
import MediaBridge.Value.Key

/-!
# Structured settings

Reading the text of a structured setting: JSON, with the names of infinity and of the
not-a-number besides the numbers.
-/

namespace MediaBridge.Json

def isSpace (c : Char) : Bool := c == ' ' || c == '\t' || c == '\n' || c == '\r'

def skipSpace (cs : List Char) : List Char := cs.dropWhile isSpace

/-- Drop a word that the text starts with. -/
def keyword? (word : String) (cs : List Char) : Option (List Char) :=
  if word.toList.isPrefixOf cs then some (cs.drop word.length) else none

def hexValue? (c : Char) : Option Nat :=
  if c.isDigit then some (c.toNat - 48)
  else if 'a' ≤ c && c ≤ 'f' then some (c.toNat - 87)
  else if 'A' ≤ c && c ≤ 'F' then some (c.toNat - 55)
  else none

/-- A code unit: four hexadecimal digits. -/
def codeUnit? : List Char → Option (Nat × List Char)
  | a :: b :: c :: d :: cs => do
    let n := 4096 * (← hexValue? a) + 256 * (← hexValue? b) + 16 * (← hexValue? c) + (← hexValue? d)
    some (n, cs)
  | _ => none

/-- The character of a code unit, or of a pair of surrogates. A lone surrogate is replaced by the
replacement character. -/
def unitChar (unit : Nat) (cs : List Char) : Char × List Char :=
  if 0xd800 ≤ unit && unit < 0xdc00 then
    match cs with
    | '\\' :: 'u' :: rest =>
      match codeUnit? rest with
      | some (low, rest) =>
        if 0xdc00 ≤ low && low < 0xe000 then
          (Char.ofNat (0x10000 + 1024 * (unit - 0xd800) + (low - 0xdc00)), rest)
        else ('\ufffd', cs)
      | none => ('\ufffd', cs)
    | _ => ('\ufffd', cs)
  else if 0xdc00 ≤ unit && unit < 0xe000 then ('\ufffd', cs)
  else (Char.ofNat unit, cs)

/-- The character that a simple escape stands for. -/
def simpleEscape? : Char → Option Char
  | '\x22' => some '\x22'
  | '\\' => some '\\'
  | '/' => some '/'
  | 'b' => some '\x08'
  | 'f' => some '\x0c'
  | 'n' => some '\n'
  | 'r' => some '\r'
  | 't' => some '\t'
  | _ => none

/-- The characters of a string after its opening quote, and what follows the closing one. -/
def stringRest? : (fuel : Nat) → List Char → Option (List Char × List Char)
  | 0, _ => none
  | _, [] => none
  | _, '\x22' :: cs => some ([], cs)
  | fuel + 1, '\\' :: 'u' :: cs => do
    let (unit, cs) ← codeUnit? cs
    let (c, cs) := unitChar unit cs
    let (rest, cs) ← stringRest? fuel cs
    some (c :: rest, cs)
  | fuel + 1, '\\' :: c :: cs => do
    let c ← simpleEscape? c
    let (rest, cs) ← stringRest? fuel cs
    some (c :: rest, cs)
  | fuel + 1, c :: cs =>
    if c.toNat < 0x20 || c == '\\' then none
    else do
      let (rest, cs) ← stringRest? fuel cs
      some (c :: rest, cs)

def string? (cs : List Char) : Option (String × List Char) :=
  (stringRest? (cs.length + 1) cs).map fun (s, cs) => (String.ofList s, cs)

def someDigits? (cs : List Char) : Option (List Nat × List Char) :=
  match Numeral.digits cs with
  | ([], _) => none
  | r => some r

def fraction? : List Char → Option (Option (List Nat) × List Char)
  | '.' :: cs => (someDigits? cs).map fun (ds, cs) => (some ds, cs)
  | cs => some (none, cs)

def exponent? : List Char → Option (Option Int × List Char)
  | [] => some (none, [])
  | c :: cs =>
    if c == 'e' || c == 'E' then
      let (negative, cs) := Numeral.sign cs
      (someDigits? cs).map fun (ds, cs) =>
        let n : Int := Text.ofDigits ds
        (some (if negative then -n else n), cs)
    else some (none, c :: cs)

/-- A number. Only an integer without fraction and exponent stays one, and it may not be too
long. -/
def number? (cs : List Char) : Option (Value × List Char) := do
  let (negative, cs) := match cs with
    | '-' :: cs => (true, cs)
    | cs => (false, cs)
  let (whole, cs) ← someDigits? cs
  if whole.head? = some 0 && 1 < whole.length then none
  else
    let (fraction, cs) ← fraction? cs
    let (exponent, cs) ← exponent? cs
    match fraction, exponent with
    | none, none =>
      let n : Int := Text.ofDigits whole
      if Text.maxDigits < whole.length then none
      else some (.ofInt (if negative then -n else n), cs)
    | _, _ =>
      let ds := fraction.getD []
      let e := exponent.getD 0 - ds.length
      some (.real (.ofDecimal negative (Text.ofDigits (whole ++ ds)) e), cs)

/-- A word that stands for a value. -/
def constant? (cs : List Char) : Option (Value × List Char) :=
  [("null", .none), ("true", .bool true), ("false", .bool false), ("NaN", .real (.nan 0)),
    ("Infinity", .real (.infinite false)), ("-Infinity", .real (.infinite true))].findSome?
    fun (word, v) => (keyword? word cs).map (v, ·)

/-- Why a text cannot be read. -/
inductive Flaw where
  | malformed
  | tooDeep

/-- What is read, or a flaw of the text. -/
def orMalformed {α : Type} : Option α → Except Flaw α
  | some a => .ok a
  | none => .error .malformed

def maxDepth : Nat := 975

mutual

/-- A value, without blanks in front of it. -/
def value (fuel depth : Nat) (cs : List Char) : Except Flaw (Value × List Char) :=
  match fuel, cs with
  | 0, _ => .error .malformed
  | _, '\x22' :: cs => orMalformed ((string? cs).map fun (s, cs) => (.ofString s, cs))
  | fuel + 1, '[' :: cs =>
    match depth, skipSpace cs with
    | 0, _ => .error .tooDeep
    | _, ']' :: cs => .ok (.list [], cs)
    | depth + 1, cs => (elements fuel depth cs).map fun (xs, cs) => (.list xs, cs)
  | fuel + 1, '\x7b' :: cs =>
    match depth, skipSpace cs with
    | 0, _ => .error .tooDeep
    | _, '\x7d' :: cs => .ok (.map false .empty, cs)
    | depth + 1, cs => (members fuel depth cs).map fun (l, cs) => (.map false (.ofList l), cs)
  | _, cs => orMalformed ((constant? cs).or (number? cs))

/-- The elements of a list, at least one, up to the closing bracket. -/
def elements (fuel depth : Nat) (cs : List Char) : Except Flaw (List Value × List Char) :=
  match fuel with
  | 0 => .error .malformed
  | fuel + 1 => do
    let (x, cs) ← value fuel depth cs
    match skipSpace cs with
    | ']' :: cs => .ok ([x], cs)
    | ',' :: cs =>
      let (xs, cs) ← elements fuel depth (skipSpace cs)
      .ok (x :: xs, cs)
    | _ => .error .malformed

/-- The members of a map, at least one, up to the closing brace. -/
def members (fuel depth : Nat) (cs : List Char) :
    Except Flaw (List (Value × Value) × List Char) :=
  match fuel, cs with
  | fuel + 1, '\x22' :: cs => do
    let (key, cs) ← orMalformed (string? cs)
    match skipSpace cs with
    | ':' :: cs =>
      let (v, cs) ← value fuel depth (skipSpace cs)
      match skipSpace cs with
      | '\x7d' :: cs => .ok ([(.ofString key, v)], cs)
      | ',' :: cs =>
        let (l, cs) ← members fuel depth (skipSpace cs)
        .ok ((.ofString key, v) :: l, cs)
      | _ => .error .malformed
    | _ => .error .malformed
  | _, _ => .error .malformed

end

/-- Read a text as one value. Every call takes off a character or nests no further, so twice the
length is fuel enough. -/
def parse (s : String) : Except Flaw Value := do
  let cs := s.toList
  let (v, rest) ← value (2 * cs.length + 1) maxDepth (skipSpace cs)
  if (skipSpace rest).isEmpty then .ok v else .error .malformed

end MediaBridge.Json
