/-!
# Hexadecimal digits

Reading accepts both letter cases; writing uses lower-case letters.
-/

namespace RoomHub.Text.Hex

/-- The value of a hexadecimal digit of either letter case. -/
def value? (c : Char) : Option Nat :=
  if '0' ≤ c ∧ c ≤ '9' then some (c.toNat - '0'.toNat)
  else if 'a' ≤ c ∧ c ≤ 'f' then some (c.toNat - 'a'.toNat + 10)
  else if 'A' ≤ c ∧ c ≤ 'F' then some (c.toNat - 'A'.toNat + 10)
  else none

/-- The lower-case digit of a value below sixteen. -/
def digit (n : Nat) : Char :=
  if n < 10 then Char.ofNat ('0'.toNat + n) else Char.ofNat ('a'.toNat + (n - 10))

/-- The number written by a list of digits, most significant first. -/
def toNat? (cs : List Char) : Option Nat :=
  cs.foldlM (fun n c => (value? c).map (16 * n + ·)) 0

/-- The `width` low digits of a number, most significant first. -/
def ofNat : (width : Nat) → Nat → List Char
  | 0, _ => []
  | w + 1, n => digit ((n >>> (4 * w)) % 16) :: ofNat w n

/-- Two digits for each byte. -/
def encode (bytes : List UInt8) : List Char :=
  bytes.flatMap fun b => ofNat 2 b.toNat

/-- The bytes written by pairs of digits. -/
def decode? : List Char → Option (List UInt8)
  | [] => some []
  | [_] => none
  | a :: b :: rest => do
    let high ← value? a
    let low ← value? b
    return UInt8.ofNat (16 * high + low) :: (← decode? rest)

theorem value?_digit : ∀ n < 16, value? (digit n) = some n := by decide

end RoomHub.Text.Hex
