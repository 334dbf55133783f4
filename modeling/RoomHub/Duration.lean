import RoomHub.Text.Decimal

/-!
# Lengths of time

A `Duration` is a number of whole seconds below 2^64 and of nanoseconds below 10^9.
Multiplication carries nanoseconds into seconds and fails beyond the largest duration;
division carries the remainder of the seconds into the nanoseconds and rounds down.
-/

namespace RoomHub

/-- The nanoseconds of a second. -/
abbrev nanosPerSecond : Nat := 1000000000

/-- Whole seconds and the nanoseconds above them. -/
structure Duration where
  seconds : Nat
  nanos : Nat
  seconds_lt : seconds < UInt64.size
  nanos_lt : nanos < nanosPerSecond
  deriving DecidableEq, Repr

namespace Duration

/-- The duration of seconds and nanoseconds, nanoseconds beyond a second carried over;
`none` beyond the largest duration. -/
def ofParts? (seconds nanos : Nat) : Option Duration :=
  if h : seconds + nanos / nanosPerSecond < UInt64.size then
    some ⟨seconds + nanos / nanosPerSecond, nanos % nanosPerSecond, h,
      Nat.mod_lt _ (by decide)⟩
  else none

/-- A number of whole seconds, the largest one from 2^64 on. -/
def ofSeconds (n : Nat) : Duration :=
  ⟨min n (UInt64.size - 1), 0, by simp only [UInt64.size]; omega, by decide⟩

/-- The length in nanoseconds. -/
def toNanos (d : Duration) : Nat := d.seconds * nanosPerSecond + d.nanos

instance : Inhabited Duration := ⟨ofSeconds 0⟩

instance : LT Duration := ⟨fun a b => a.toNanos < b.toNanos⟩

instance : LE Duration := ⟨fun a b => a.toNanos ≤ b.toNanos⟩

instance (a b : Duration) : Decidable (a < b) :=
  inferInstanceAs (Decidable (a.toNanos < b.toNanos))

instance (a b : Duration) : Decidable (a ≤ b) :=
  inferInstanceAs (Decidable (a.toNanos ≤ b.toNanos))

/-- Whether the duration is empty. -/
def isZero (d : Duration) : Bool := d.seconds = 0 && d.nanos = 0

/-- A whole multiple; `none` beyond the largest duration. -/
def mul? (d : Duration) (k : Nat) : Option Duration :=
  let nanos := d.nanos * k
  ofParts? (d.seconds * k + nanos / nanosPerSecond) (nanos % nanosPerSecond)

/-- The `k`-th part, rounded down to nanoseconds: the seconds left over are divided as
nanoseconds. Each of the two parts is rounded by itself, and what both leave over is
divided once more. -/
def div (d : Duration) (k : Nat) (hk : 0 < k) : Duration :=
  let carried := d.seconds % k * nanosPerSecond + d.nanos % k
  have hs : d.seconds % k < k := Nat.mod_lt _ hk
  have hlt : d.nanos / k + carried / k < nanosPerSecond := by
    have hn := d.nanos_lt
    have hcar : carried / k + d.nanos / k = (d.seconds % k * nanosPerSecond + d.nanos) / k := by
      have : d.seconds % k * nanosPerSecond + d.nanos = carried + d.nanos / k * k := by
        have := Nat.div_add_mod d.nanos k
        simp only [carried]
        rw [Nat.mul_comm (d.nanos / k) k]
        omega
      rw [this, Nat.add_mul_div_right _ _ hk]
    rw [Nat.add_comm, hcar, Nat.div_lt_iff_lt_mul hk]
    calc d.seconds % k * nanosPerSecond + d.nanos
        < (d.seconds % k + 1) * nanosPerSecond := by rw [Nat.add_mul]; omega
      _ ≤ nanosPerSecond * k := by rw [Nat.mul_comm]; exact Nat.mul_le_mul_left _ hs
  ⟨d.seconds / k, d.nanos / k + carried / k,
    Nat.lt_of_le_of_lt (Nat.div_le_self _ _) d.seconds_lt, hlt⟩

/-! ## Text -/

/-- Digits without the zeros at their end. -/
def stripZeros (ds : List Char) : List Char :=
  (ds.reverse.dropWhile (· = '0')).reverse

/-- A whole part and a fraction of `width` digits, without a point when the fraction is
zero. -/
def fixed (whole fraction width : Nat) (suffix : String) : String :=
  let places := stripZeros (Text.Decimal.padded width fraction)
  String.ofList (Text.Decimal.ofNat whole ++ (if places.isEmpty then [] else '.' :: places))
    ++ suffix

/-- The duration in its largest unit that has a whole part: seconds, milliseconds,
microseconds or nanoseconds. -/
def toText (d : Duration) : String :=
  if d.seconds > 0 then fixed d.seconds d.nanos 9 "s"
  else if d.nanos ≥ 1000000 then fixed (d.nanos / 1000000) (d.nanos % 1000000) 6 "ms"
  else if d.nanos ≥ 1000 then fixed (d.nanos / 1000) (d.nanos % 1000) 3 "µs"
  else fixed d.nanos 0 0 "ns"

end Duration

end RoomHub
