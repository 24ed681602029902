/-!
# Decimal digits

The decimal digits of all scripts. Each script has its ten digits in a row, so a table of the
zeros is enough. An integer with too many digits is neither read nor written.
-/

namespace MediaBridge.Text

def digitZeros : List Nat :=
  [
    0x30, 0x660, 0x6f0, 0x7c0, 0x966, 0x9e6, 0xa66, 0xae6, 0xb66, 0xbe6, 0xc66, 0xce6, 0xd66,
    0xde6, 0xe50, 0xed0, 0xf20, 0x1040, 0x1090, 0x17e0, 0x1810, 0x1946, 0x19d0, 0x1a80, 0x1a90,
    0x1b50, 0x1bb0, 0x1c40, 0x1c50, 0xa620, 0xa8d0, 0xa900, 0xa9d0, 0xa9f0, 0xaa50, 0xabf0, 0xff10,
    0x104a0, 0x10d30, 0x11066, 0x110f0, 0x11136, 0x111d0, 0x112f0, 0x11450, 0x114d0, 0x11650,
    0x116c0, 0x11730, 0x118e0, 0x11950, 0x11c50, 0x11d50, 0x11da0, 0x16a60, 0x16ac0, 0x16b50,
    0x1d7ce, 0x1d7d8, 0x1d7e2, 0x1d7ec, 0x1d7f6, 0x1e140, 0x1e2f0, 0x1e950, 0x1fbf0]

def digitValue? (c : Char) : Option Nat :=
  (digitZeros.find? fun z => z ≤ c.toNat && c.toNat < z + 10).map (c.toNat - ·)

/-- The number that digits write in base ten, most significant first. -/
def ofDigits (ds : List Nat) : Nat := ds.foldl (fun n d => 10 * n + d) 0

/-- The greatest number of digits of an integer that is read from text or written as one. -/
def maxDigits : Nat := 4300

/-- The wording of a refusal to read or write an integer with too many digits, with a detail. -/
def beyondDigits (detail : String) : String :=
  s!"Exceeds the limit ({maxDigits} digits) for integer string conversion" ++ detail ++
    "; use sys.set_int_max_str_digits() to increase the limit"

/-- The wording if the integer was to be read, which says how many digits there are. -/
def tooManyDigits (digits : Nat) : String := beyondDigits s!": value has {digits} digits"

/-- A power of ten: the least number with more digits than given. -/
def tenPow (digits : Nat) : Nat := Nat.pow 10 digits

/-- The number of decimal digits of an integer, without its sign. -/
def digitCount (n : Int) : Nat := (Nat.toDigits 10 n.natAbs).length

/-- An integer in decimal digits, unless it has too many of them. -/
def decimal? (n : Int) : Option String :=
  if digitCount n ≤ maxDigits then some (toString n) else none

theorem tenPow_le {m n : Nat} (h : m ≤ n) : tenPow m ≤ tenPow n :=
  Nat.pow_le_pow_right (by decide) h

theorem digitCount_le_iff {n : Int} {k : Nat} (hk : 0 < k) :
    digitCount n ≤ k ↔ n.natAbs < tenPow k :=
  Nat.length_toDigits_le_iff (by decide) hk

theorem decimal?_eq_none_iff {n : Int} : decimal? n = none ↔ tenPow maxDigits ≤ n.natAbs := by
  have hcount : digitCount n ≤ maxDigits ↔ n.natAbs < tenPow maxDigits :=
    digitCount_le_iff (by decide)
  rw [← Nat.not_lt, ← hcount, decimal?]
  split
  · next h => exact iff_of_false nofun (not_not_intro h)
  · next h => exact iff_of_true rfl h

end MediaBridge.Text
