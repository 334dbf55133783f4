/-!
# UTF-8

A byte sequence is cut into units: a character, or the longest run of bytes that begins
a character and is not continued as UTF-8 demands. `text?` accepts the sequences without
such a run, `replaced` puts a chosen character in the place of each, and `refused` tells
whether a sequence is ruled out whatever bytes may still follow it.
-/

namespace RoomHub.Text.Utf8

/-- The bytes of a text. -/
def bytes (s : String) : List UInt8 := s.toUTF8.data.toList

/-- The text of a byte sequence, when it is well formed. -/
def text? (bs : List UInt8) : Option String := String.fromUTF8? ⟨bs.toArray⟩

/-- How many bytes a lead byte announces after itself, and the range of the first. -/
def continuation (lead : UInt8) : Option (Nat × UInt8 × UInt8) :=
  if 0xC2 ≤ lead ∧ lead ≤ 0xDF then some (1, 0x80, 0xBF)
  else if lead = 0xE0 then some (2, 0xA0, 0xBF)
  else if lead = 0xED then some (2, 0x80, 0x9F)
  else if 0xE1 ≤ lead ∧ lead ≤ 0xEF then some (2, 0x80, 0xBF)
  else if lead = 0xF0 then some (3, 0x90, 0xBF)
  else if 0xF1 ≤ lead ∧ lead ≤ 0xF3 then some (3, 0x80, 0xBF)
  else if lead = 0xF4 then some (3, 0x80, 0x8F)
  else none

/-- What a reader holds between two bytes: nothing, or a character begun, as its bits so
far, the bytes still owed and the range of the next one. -/
inductive Pending where
  | none
  | begun (bits : Nat) (owed : Nat) (low high : UInt8)
  deriving DecidableEq, Repr

/-- What a byte completes: nothing yet, a character, or a run that is no character. -/
inductive Outcome where
  | nothing
  | char (c : Char)
  | illFormed
  deriving DecidableEq, Repr

/-- A byte that begins a character or stands alone. -/
def begin (b : UInt8) : Outcome × Pending :=
  if b < 0x80 then (.char (Char.ofNat b.toNat), .none)
  else match continuation b with
    | some (owed, low, high) =>
      (.nothing, .begun (b.toNat % (1 <<< (6 - owed))) owed low high)
    | none => (.illFormed, .none)

/-- One byte more: what it completes first, what it completes second, and what is left
pending. A byte that cannot continue the character begun ends it as ill formed and is
then read as a beginning of its own. -/
def feed (p : Pending) (b : UInt8) : Outcome × Outcome × Pending :=
  match p with
  | .none => let (o, q) := begin b; (.nothing, o, q)
  | .begun bits owed low high =>
    if low ≤ b ∧ b ≤ high then
      let bits := 64 * bits + b.toNat % 64
      if owed ≤ 1 then (.nothing, .char (Char.ofNat bits), .none)
      else (.nothing, .nothing, .begun bits (owed - 1) 0x80 0xBF)
    else let (o, q) := begin b; (.illFormed, o, q)

/-- The units of a byte sequence: characters, and `none` for an ill-formed run. -/
def units (p : Pending) : List UInt8 → List (Option Char)
  | [] => match p with
    | .none => []
    | .begun .. => [none]
  | b :: rest =>
    let (first, second, q) := feed p b
    let emit : Outcome → List (Option Char) → List (Option Char)
      | .nothing, us => us
      | .char c, us => some c :: us
      | .illFormed, us => none :: us
    emit first (emit second (units q rest))

/-- The text of a byte sequence with `c` for every ill-formed run. -/
def replaced (c : Char) (bs : List UInt8) : String :=
  String.ofList ((units .none bs).map (·.getD c))

/-- Reads on from a pending character; `none` once an ill-formed run is met. -/
def resume (p : Pending) : List UInt8 → Option Pending
  | [] => some p
  | b :: rest =>
    match feed p b with
    | (.illFormed, _, _) => none
    | (_, .illFormed, _) => none
    | (_, _, q) => resume q rest

/-- Whether no continuation of the bytes is UTF-8. -/
def refused (bs : List UInt8) : Bool := (resume .none bs).isNone

end RoomHub.Text.Utf8
