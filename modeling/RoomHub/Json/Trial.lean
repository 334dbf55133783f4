import RoomHub.Json

/-!
# Trying to read a value

A reader that tries to use a value as a whole, and goes on without it when that fails, is left
where it failed. Only behind the value can it go on with the members that follow. It is left
there when it failed on the very last of the value and had read that to its end:

* a string with ill-formed bytes is decoded after its closing quote has been found;
* behind the first half of a surrogate pair one character is taken before it turns out not to
  begin the second half, and that may be the closing quote;
* a number beyond the range is refused after its last digit, unless the exponent is so long that
  the reader does not get to the end of it.

The brackets and braces around what failed are still closed, so nothing else may follow in them.
`trial` tells how the attempt ends, for values that `parseMarked?` has read: it marks the strings
of the first two kinds. That a value is too deep is noticed in front of a bracket, inside of it.
-/

namespace RoomHub

/-- Whether a number is read to its last digit even when it is beyond the range: the digits of an
exponent are read until they exceed 32 bits. The places of a fraction are already taken off. -/
def Numeral.readOut (n : Numeral) : Bool :=
  match n.scale with
  | none => true
  | some e => e / 10 ≤ Int32.maxValue.toInt

namespace Json

/-- Puts the mark in the place of every first half of a surrogate pair that has the closing quote
behind it. -/
def markHalves (mark : Char) : List Char → List Char
  | '\\' :: 'u' :: a :: b :: c :: d :: '"' :: rest =>
    if (Text.Hex.toNat? [a, b, c, d]).any isHigh then mark :: '"' :: markHalves mark rest
    else '\\' :: 'u' :: markHalves mark (a :: b :: c :: d :: '"' :: rest)
  | '\\' :: c :: rest => '\\' :: c :: markHalves mark rest
  | c :: rest => c :: markHalves mark rest
  | [] => []

/-- Reads the bytes of a text, with the mark in every string that is no text but is read up to its
closing quote. -/
def parseMarked? (mark : Char) (bs : List UInt8) : Option Json :=
  parseChars? (markHalves mark ((Text.Utf8.text? bs).getD (Text.Utf8.replaced mark bs)).toList)

/-- How an attempt to read a value as a whole ends: the value is read, or the reader is left
behind it, or somewhere within. -/
inductive Trial where
  | read
  | behind
  | within
  deriving DecidableEq, Repr

/-- An attempt on the first parts of a container, then on the others: `last` tells that there are
no others. -/
def Trial.andThen (first : Trial) (last : Bool) (others : Trial) : Trial :=
  match first with
  | read => others
  | behind => if last then behind else within
  | within => within

mutual

/-- How the attempt to read a value as a whole ends, when it is not too deep. -/
def trial (mark : Char) : Json → Trial
  | number n => if n.finite then .read else if n.readOut then .behind else .within
  | string none => .within
  | string (some s) => if s.toList.contains mark then .behind else .read
  | array items => itemsTrial mark items
  | object members => membersTrial mark members
  | _ => .read

/-- The attempt on the items of an array. -/
def itemsTrial (mark : Char) : List Json → Trial
  | [] => .read
  | v :: vs => (trial mark v).andThen vs.isEmpty (itemsTrial mark vs)

/-- The attempt on the members of an object; a key is always followed by its value. -/
def membersTrial (mark : Char) : List (Option String × Json) → Trial
  | [] => .read
  | (k, v) :: ms =>
    if k.all (·.toList.contains mark) then .within
    else (trial mark v).andThen ms.isEmpty (membersTrial mark ms)

end

end Json

end RoomHub
