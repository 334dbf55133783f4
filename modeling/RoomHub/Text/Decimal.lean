/-!
# Decimal digits

Numbers as runs of ASCII digits, and padding to a fixed width.
-/

namespace RoomHub.Text.Decimal

/-- The value of an ASCII digit. -/
def value? (c : Char) : Option Nat :=
  if '0' ≤ c ∧ c ≤ '9' then some (c.toNat - '0'.toNat) else none

/-- Whether a character is an ASCII digit. -/
def isDigit (c : Char) : Bool := '0' ≤ c && c ≤ '9'

/-- The number that digits write, most significant first; other characters count as
nothing, so callers pass digits only. -/
def toNat (cs : List Char) : Nat :=
  cs.foldl (fun n c => 10 * n + (c.toNat - '0'.toNat)) 0

/-- The digits of a number, without leading zeros. -/
def ofNat (n : Nat) : List Char := Nat.toDigits 10 n

/-- The digits of a number, with zeros before them up to `width` characters. -/
def padded (width n : Nat) : List Char :=
  let ds := ofNat n
  List.replicate (width - ds.length) '0' ++ ds

/-- An integer with a minus sign before its digits when it is negative. -/
def ofInt (i : Int) : List Char :=
  if i < 0 then '-' :: ofNat i.natAbs else ofNat i.natAbs

/-- An unsigned number below `bound`: digits, optionally after one plus sign. -/
def parseBelow? (bound : Nat) (s : String) : Option Nat :=
  let ds := match s.toList with
    | '+' :: rest => rest
    | cs => cs
  if ds.isEmpty ∨ !ds.all isDigit then none
  else
    let n := toNat ds
    if n < bound then some n else none

end RoomHub.Text.Decimal
