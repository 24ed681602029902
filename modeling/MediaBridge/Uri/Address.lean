import MediaBridge.Text.Digit

/-!
# Internet addresses

Which texts are addresses of version 4, of version 6, or of a future version. Only the spelling
counts, the address itself is not computed.
-/

namespace MediaBridge.Uri

def fields (separator : Char) : List Char → List (List Char)
  | [] => [[]]
  | c :: cs =>
    if c = separator then [] :: fields separator cs
    else match fields separator cs with
      | [] => [[c]]
      | f :: fs => (c :: f) :: fs

/-- What precedes the first occurrence of a character, all if there is none. -/
def before (c : Char) (cs : List Char) : List Char := cs.takeWhile (· ≠ c)

/-- What follows the first occurrence of a character, nothing if there is none. -/
def after (c : Char) (cs : List Char) : List Char := (cs.dropWhile (· ≠ c)).drop 1

/-- What follows the last occurrence of a character, all if there is none. -/
def afterLast (c : Char) (cs : List Char) : List Char := (cs.reverse.takeWhile (· ≠ c)).reverse

/-- The number written by digits of ASCII. -/
def decimalValue (cs : List Char) : Nat := Text.ofDigits (cs.map (·.toNat - 48))

/-- A decimal from 0 to 255 without leading zeros. -/
def isOctet (cs : List Char) : Bool :=
  !cs.isEmpty && cs.all Char.isDigit && cs.length ≤ 3 && (cs.length == 1 || cs.head? != some '0') &&
    decimalValue cs ≤ 255

def isAddress4 (cs : List Char) : Bool :=
  let octets := fields '.' cs
  octets.length == 4 && octets.all isOctet

def isHexDigit (c : Char) : Bool :=
  c.isDigit || ('a' ≤ c && c ≤ 'f') || ('A' ≤ c && c ≤ 'F')

def isGroup (cs : List Char) : Bool := !cs.isEmpty && cs.length ≤ 4 && cs.all isHexDigit

/-- Count an address of version 4 at the end as two groups. -/
def expandTail? : List (List Char) → Option (List (List Char))
  | [] => some []
  | [last] =>
    if last.contains '.' then if isAddress4 last then some [['0'], ['0']] else none
    else some [last]
  | p :: ps => (expandTail? ps).map (p :: ·)

/-- The number of groups on one side of a double colon, which may have none. -/
def sideGroups? (side : List (List Char)) : Option Nat :=
  if side = [[]] then some 0 else if side.all isGroup then some side.length else none

/-- The pieces between colons make an address: eight groups, or fewer with one double colon that
stands for the rest. -/
def areGroups (pieces : List (List Char)) : Bool :=
  let inner := (pieces.drop 1).dropLast
  match inner.findIdx? List.isEmpty with
  | none => pieces.length == 8 && pieces.all isGroup
  | some i =>
    match sideGroups? (pieces.take (i + 1)), sideGroups? (pieces.drop (i + 2)) with
    | some high, some low => high + low ≤ 7
    | _, _ => false

/-- An address of version 6, with an optional scope after a percent sign. -/
def isAddress6 (cs : List Char) : Bool :=
  let scope := after '%' cs
  (!cs.contains '%' || (!scope.isEmpty && !scope.contains '%')) &&
    (expandTail? (fields ':' (before '%' cs))).any areGroups

/-- An address of a future version: the letter, a hexadecimal version, a dot and some text. -/
def isFutureAddress : List Char → Bool
  | 'v' :: cs =>
    !(cs.takeWhile isHexDigit).isEmpty &&
      match cs.dropWhile isHexDigit with
      | '.' :: rest => !rest.isEmpty && !rest.contains '\n'
      | _ => false
  | _ => false

theorem before_append_after {c : Char} {cs : List Char} (h : c ∈ cs) :
    before c cs ++ c :: after c cs = cs := by
  induction cs with
  | nil => simp at h
  | cons d ds ih =>
    by_cases hd : d = c
    · simp [before, after, hd]
    · have := ih (by simpa [Ne.symm hd] using h)
      simpa [before, after, hd] using this

theorem before_eq_self {c : Char} {cs : List Char} (h : c ∉ cs) : before c cs = cs := by
  induction cs with
  | nil => rfl
  | cons d ds ih =>
    simp only [List.mem_cons, not_or] at h
    have := ih h.2
    simpa [before, Ne.symm h.1] using this

end MediaBridge.Uri
