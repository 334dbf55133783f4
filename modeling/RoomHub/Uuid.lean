import Std.Data.ExtTreeMap
import RoomHub.Text.Hex

/-!
# 128-bit identifiers

A `Uuid` is its 128 bits. It is written as 32 lower-case hexadecimal digits in groups of
8, 4, 4, 4 and 12, and read from four layouts: the digits alone, the hyphenated groups,
the groups in braces, and the groups after `urn:uuid:`. Digits and the `urn:uuid:` may be
of either letter case. `digits?` peels the layout off and leaves the 32 digits, so two
texts denote one identifier exactly when their digits agree up to letter case.
-/

namespace RoomHub

/-- A 128-bit identifier, ordered by its bytes. -/
structure Uuid where
  bits : BitVec 128
  deriving DecidableEq, Repr, Hashable

namespace Uuid

instance : Inhabited Uuid := ⟨⟨0⟩⟩

instance : Ord Uuid := ⟨compareOn bits⟩

instance : Std.TransOrd Uuid := inferInstanceAs (Std.TransCmp (compareOn bits))

instance : Std.LawfulEqOrd Uuid where
  eq_of_compare {a b} h := by
    cases a; cases b
    exact congrArg _ (Std.LawfulEqOrd.eq_of_compare (α := BitVec 128) h)

/-- The groups of the hyphenated layout, by their number of digits. -/
def groups : List Nat := [8, 4, 4, 4, 12]

/-- Writes digits in groups of the given sizes with a hyphen between two groups. -/
def hyphenate : List Nat → List Char → List Char
  | [], ds => ds
  | [n], ds => ds.take n
  | n :: ns, ds => ds.take n ++ '-' :: hyphenate ns (ds.drop n)

/-- The digits of text in groups of the given sizes with a hyphen between two groups. -/
def unhyphenate? : List Nat → List Char → Option (List Char)
  | [], cs => if cs.isEmpty then some [] else none
  | [n], cs => if cs.length = n then some cs else none
  | n :: ns, cs =>
    if cs.length < n then none
    else match cs.drop n with
      | '-' :: rest => (unhyphenate? ns rest).map (cs.take n ++ ·)
      | _ => none

/-- The lower-case form of an ASCII letter. -/
def lower (c : Char) : Char := c.toLower

/-- What stands before the groups in the `urn` layout, in lower case. -/
def urnPrefix : List Char := "urn:uuid:".toList

/-- The 32 characters that stand for digits in one of the four layouts. -/
def digits? (cs : List Char) : Option (List Char) :=
  if cs.length = 32 then some cs
  else if cs.length = 36 then unhyphenate? groups cs
  else if cs.length = 38 ∧ cs.head? = some '{' ∧ cs.getLast? = some '}' then
    unhyphenate? groups (cs.drop 1).dropLast
  else if cs.length = 45 ∧ (cs.take 9).map lower = urnPrefix then
    unhyphenate? groups (cs.drop 9)
  else none

/-- Reads an identifier in any of the four layouts. -/
def parse? (s : String) : Option Uuid := do
  let ds ← digits? s.toList
  let n ← Text.Hex.toNat? ds
  return ⟨BitVec.ofNat 128 n⟩

/-- The 32 lower-case digits of an identifier. -/
def digits (u : Uuid) : List Char := Text.Hex.ofNat 32 u.bits.toNat

/-- The hyphenated lower-case layout. -/
def toText (u : Uuid) : String := String.ofList (hyphenate groups u.digits)

instance : ToString Uuid := ⟨toText⟩

/-- The identifier whose low bits are `n`. -/
def ofNat (n : Nat) : Uuid := ⟨BitVec.ofNat 128 n⟩

/-! ## Random identifiers -/

/-- The identifier of version 4 that random bits give: the version and the variant are
overwritten, all else is kept. -/
def ofRandom (n : Nat) : Uuid :=
  let bits := BitVec.ofNat 128 n
  let version := (0xF : BitVec 128) <<< 76
  let variant := (0x3 : BitVec 128) <<< 62
  ⟨(bits &&& ~~~version &&& ~~~variant) ||| ((4 : BitVec 128) <<< 76) |||
    ((2 : BitVec 128) <<< 62)⟩

/-- Whether the version and the variant are those of a random identifier. -/
def isVersion4 (u : Uuid) : Bool :=
  (u.bits >>> 76).toNat % 16 = 4 && (u.bits >>> 62).toNat % 4 = 2

end Uuid

end RoomHub
