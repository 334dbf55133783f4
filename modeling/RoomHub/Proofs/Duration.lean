import Mathlib.Algebra.Group.Nat.Defs
import RoomHub.Duration

/-!
# Lengths of time as numbers of nanoseconds

Multiplying carries nanoseconds into seconds, and dividing carries seconds into nanoseconds. Counted
in nanoseconds nothing of that is left to see:

> `ofParts?_eq_none_iff`, `mul?_eq_none_iff`: what fails is what is beyond the longest duration;
> `toNanos_mul?`: a multiple is that multiple of the nanoseconds;
> `toNanos_div`: a part is that part of the nanoseconds, rounded down.
-/

namespace RoomHub.Duration

variable {d d' : Duration} {seconds nanos k : Nat}

/-- The longest duration. -/
def longest : Duration := ⟨UInt64.size - 1, nanosPerSecond - 1, by decide, by decide⟩

/-- One nanosecond more than the longest duration is a number of seconds that no machine word
holds. -/
theorem toNanos_longest : longest.toNanos + 1 = UInt64.size * nanosPerSecond := by decide

/-- No duration is longer than the longest. -/
theorem le_longest (d : Duration) : d ≤ longest := by
  have hseconds := d.seconds_lt
  have hnanos := d.nanos_lt
  have htop := toNanos_longest
  show d.toNanos ≤ longest.toNanos
  simp only [toNanos, nanosPerSecond, UInt64.size] at *
  omega

/-- A duration that is not zero lasts. -/
theorem isZero_eq_false : d.isZero = false ↔ 0 < d.toNanos := by
  simp only [isZero, toNanos, nanosPerSecond, Bool.and_eq_false_iff, decide_eq_false_iff_not]
  omega

/-- Seconds beyond the machine word are cut to its greatest number. -/
theorem toNanos_ofSeconds (seconds : Nat) :
    (ofSeconds seconds).toNanos = min seconds (UInt64.size - 1) * nanosPerSecond :=
  Nat.add_zero _

/-- Seconds within the machine word are all counted. -/
theorem toNanos_ofSeconds_of_lt (h : seconds < UInt64.size) :
    (ofSeconds seconds).toNanos = seconds * nanosPerSecond := by
  rw [toNanos_ofSeconds, Nat.min_eq_left (Nat.le_sub_one_of_lt h)]

/-- Only no second at all is no duration. -/
theorem isZero_ofSeconds (seconds : Nat) : (ofSeconds seconds).isZero = decide (seconds = 0) := by
  have hzero : min seconds (UInt64.size - 1) = 0 ↔ seconds = 0 := by
    simp only [UInt64.size]
    omega
  simp only [isZero, ofSeconds, hzero, decide_true, Bool.and_true]

/-! ## Carrying nanoseconds over -/

/-- A duration put together lasts as long as its parts. -/
theorem toNanos_ofParts? (h : ofParts? seconds nanos = some d) :
    d.toNanos = seconds * nanosPerSecond + nanos := by
  unfold ofParts? at h
  split at h
  next =>
    cases h
    simp only [toNanos, nanosPerSecond]
    omega
  next => cases h

/-- Parts can be put together exactly as long as they do not exceed the longest duration. -/
theorem ofParts?_eq_none_iff :
    ofParts? seconds nanos = none ↔ longest.toNanos < seconds * nanosPerSecond + nanos := by
  have htop := toNanos_longest
  unfold ofParts?
  split
  next h =>
    refine iff_of_false (Option.some_ne_none _) ?_
    simp only [nanosPerSecond, UInt64.size] at *
    omega
  next h =>
    refine iff_of_true rfl ?_
    simp only [nanosPerSecond, UInt64.size] at *
    omega

/-! ## Multiples and parts -/

/-- The parts of a multiple, before they are put together. -/
theorem parts_mul (d : Duration) (k : Nat) :
    (d.seconds * k + d.nanos * k / nanosPerSecond) * nanosPerSecond
      + d.nanos * k % nanosPerSecond = d.toNanos * k := by
  have hcarry := Nat.div_add_mod (d.nanos * k) nanosPerSecond
  rw [toNanos, Nat.add_mul, Nat.add_mul, Nat.mul_right_comm, Nat.add_assoc,
    Nat.mul_comm (d.nanos * k / nanosPerSecond), hcarry]

/-- A multiple that exists lasts that many times as long. -/
theorem toNanos_mul? (h : d.mul? k = some d') : d'.toNanos = d.toNanos * k := by
  rw [toNanos_ofParts? h, parts_mul]

/-- A multiple fails to exist exactly if it would exceed the longest duration. -/
theorem mul?_eq_none_iff : d.mul? k = none ↔ longest.toNanos < d.toNanos * k := by
  rw [← parts_mul]
  exact ofParts?_eq_none_iff

/-- A part of a duration is rounded down to whole nanoseconds. -/
theorem toNanos_div (d : Duration) (hk : 0 < k) : (d.div k hk).toNanos = d.toNanos / k := by
  have hseconds := Nat.div_add_mod d.seconds k
  have hnanos := Nat.div_add_mod d.nanos k
  -- what is left over of both parts is divided once more
  have hsplit : d.toNanos = k * (d.seconds / k * nanosPerSecond + d.nanos / k)
      + (d.seconds % k * nanosPerSecond + d.nanos % k) := by
    calc d.toNanos
        = (k * (d.seconds / k) + d.seconds % k) * nanosPerSecond
          + (k * (d.nanos / k) + d.nanos % k) := by rw [hseconds, hnanos]; rfl
      _ = _ := by grind
  rw [hsplit, Nat.mul_add_div hk, Nat.add_assoc]
  rfl

end RoomHub.Duration
