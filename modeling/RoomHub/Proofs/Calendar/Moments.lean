import RoomHub.Proofs.Calendar.Days
import RoomHub.Proofs.Text.Decimal

/-!
# Reading moments

A reader for the texts of moments, as RFC 3339 describes them: a date of the calendar and a
time of day in universal time with three digits of the second's fraction. Years outside of
0 to 9999 have a sign and four digits at least.

> `moment?_rfc3339`: what is written for a moment reads as that moment, rounded down to the
> millisecond.
-/

namespace RoomHub

/-- The moment rounded down to the millisecond. -/
def Instant.floorMillis (t : Instant) : Instant := .ofMillis t.millis

namespace Calendar

open Text

/-! ## The reader -/

/-- Takes a character off the front of a text. -/
def after? (c : Char) : List Char → Option (List Char)
  | [] => none
  | d :: cs => if d = c then some cs else none

/-- Takes so many digits off the front of a text. -/
def digits? (width : Nat) (cs : List Char) : Option (Nat × List Char) :=
  let ds := cs.take width
  if ds.length = width ∧ ds.all Decimal.isDigit then some (Decimal.toNat ds, cs.drop width)
  else none

/-- Takes four digits or more off the front of a text. -/
def longYear? (cs : List Char) : Option (Nat × List Char) :=
  let ds := cs.takeWhile Decimal.isDigit
  if 4 ≤ ds.length then some (Decimal.toNat ds, cs.dropWhile Decimal.isDigit) else none

/-- Takes a year off the front of a text: four digits, or a sign with four digits or more. -/
def year? : List Char → Option (Int × List Char)
  | '-' :: cs => (longYear? cs).map fun r => (-r.1, r.2)
  | '+' :: cs => (longYear? cs).map fun r => (r.1, r.2)
  | cs => (digits? 4 cs).map fun r => (r.1, r.2)

/-- The millisecond of a time of day. -/
def milliOfDay (hour minute second milli : Nat) : Nat :=
  ((hour * 60 + minute) * 60 + second) * 1000 + milli

/-- The moment of a millisecond of a date. -/
def momentOf (d : Date) (milli : Nat) : Instant := .ofMillis (toDays d * 86400000 + milli)

/-- Reads the text of a moment. -/
def moment? (s : String) : Option Instant := do
  let (year, cs) ← year? s.toList
  let (month, cs) ← (after? '-' cs).bind (digits? 2)
  let (day, cs) ← (after? '-' cs).bind (digits? 2)
  let (hour, cs) ← (after? 'T' cs).bind (digits? 2)
  let (minute, cs) ← (after? ':' cs).bind (digits? 2)
  let (second, cs) ← (after? ':' cs).bind (digits? 2)
  let (milli, cs) ← (after? '.' cs).bind (digits? 3)
  let date : Date := ⟨year, month, day⟩
  if cs = ['Z'] ∧ date.isValid ∧ hour < 24 ∧ minute < 60 ∧ second < 60 then
    return momentOf date (milliOfDay hour minute second milli)
  else none

/-! ## What was written is read -/

/-- A number written in a fixed width is read back, whatever follows it. -/
theorem digits?_padded {width n : Nat} (hn : n < 10 ^ width) (hwidth : 0 < width)
    (rest : List Char) :
    digits? width (Decimal.padded width n ++ rest) = some (n, rest) := by
  have hlen := Decimal.length_padded hn hwidth
  unfold digits?
  rw [List.take_left' hlen, List.drop_left' hlen,
    if_pos ⟨hlen, List.all_eq_true.mpr (Decimal.isDigit_of_mem_padded width n)⟩, Decimal.toNat_padded]

/-- A separator with padded digits behind it. -/
theorem field_padded {width n : Nat} (c : Char) (hn : n < 10 ^ width) (hwidth : 0 < width)
    (rest : List Char) :
    (after? c (c :: (Decimal.padded width n ++ rest))).bind (digits? width) = some (n, rest) := by
  rw [after?, if_pos rfl, Option.bind_some]
  exact digits?_padded hn hwidth rest

/-- A year of at least four digits is read up to the first character that is none. -/
theorem longYear?_padded (n : Nat) {rest : List Char} (hrest : Decimal.NoDigit rest) :
    longYear? (Decimal.padded 4 n ++ rest) = some (n, rest) := by
  have hds := Decimal.isDigit_of_mem_padded 4 n
  unfold longYear?
  simp only [Decimal.takeWhile_isDigit_append hds hrest, Decimal.dropWhile_isDigit_append hds hrest]
  rw [if_pos (Decimal.le_length_padded 4 n), Decimal.toNat_padded]

/-- A year that begins with a digit has no sign. -/
theorem year?_of_isDigit {c : Char} {cs : List Char} (hc : Decimal.isDigit c = true) :
    year? (c :: cs) = (digits? 4 (c :: cs)).map fun r => ((r.1 : Int), r.2) := by
  unfold year?
  split
  next heq =>
    rw [(List.cons.inj heq).1] at hc
    cases hc
  next heq =>
    rw [(List.cons.inj heq).1] at hc
    cases hc
  next => rfl

/-- A year is read back where no digit follows it. -/
theorem year?_yearText (y : Int) {rest : List Char} (hrest : Decimal.NoDigit rest) :
    year? (yearText y ++ rest) = some (y, rest) := by
  unfold yearText
  by_cases hshort : 0 ≤ y ∧ y ≤ 9999
  · obtain ⟨n, rfl⟩ := Int.eq_ofNat_of_zero_le hshort.1
    have hlt : n < 10 ^ 4 := by omega
    have hread := digits?_padded hlt (by decide) rest
    have hlen : (Decimal.padded 4 n).length = 4 := Decimal.length_padded hlt (by decide)
    obtain ⟨c, cs, hc⟩ : ∃ c cs, Decimal.padded 4 n = c :: cs :=
      List.exists_cons_of_length_pos (by omega)
    have hdigit := Decimal.isDigit_of_mem_padded 4 n c (hc ▸ List.mem_cons_self)
    rw [if_pos hshort, Int.toNat_natCast, hc]
    rw [hc] at hread
    exact (year?_of_isDigit hdigit).trans (congrArg _ hread)
  · rw [if_neg hshort, List.cons_append]
    by_cases hneg : y < 0
    · have habs : -(y.natAbs : Int) = y := by omega
      rw [if_pos hneg, year?, longYear?_padded _ hrest, Option.map_some, habs]
    · have habs : (y.natAbs : Int) = y := by omega
      rw [if_neg hneg, year?, longYear?_padded _ hrest, Option.map_some, habs]

/-- The hours, minutes, seconds and milliseconds of a moment of the day make it up again. -/
theorem milliOfDay_parts {m : Nat} :
    milliOfDay (m / 3600000) (m / 60000 % 60) (m / 1000 % 60) (m % 1000) = m := by
  unfold milliOfDay
  omega

theorem monthLength_le (y : Int) (m : Nat) : monthLength y m ≤ 31 := by
  unfold monthLength
  split
  · split <;> omega
  · split <;> omega

/-- What is written for a moment reads as that moment, rounded down to the millisecond. -/
theorem moment?_rfc3339 (t : Instant) : moment? (rfc3339 t) = some t.floorMillis := by
  have hvalid := isValid_ofDays (t.millis / 86400000)
  obtain ⟨⟨-, hmonth⟩, -, hday⟩ := Date.isValid_iff.mp hvalid
  have hlength := monthLength_le (ofDays (t.millis / 86400000)).year (ofDays (t.millis / 86400000)).month
  have hmilli : (t.millis % 86400000).toNat < 86400000 := by omega
  generalize hm : (t.millis % 86400000).toNat = m at hmilli
  have hmoment : momentOf (ofDays (t.millis / 86400000)) m = t.floorMillis := by
    unfold momentOf Instant.floorMillis
    rw [toDays_ofDays]
    congr 1
    omega
  unfold moment? rfc3339
  simp only [hm, String.toList_ofList, List.append_assoc, List.cons_append]
  rw [year?_yearText _ (Decimal.noDigit_cons rfl)]
  simp only [Option.bind_eq_bind, Option.bind_some]
  rw [field_padded '-' (by omega) (by decide)]
  simp only [Option.bind_some]
  rw [field_padded '-' (by omega) (by decide)]
  simp only [Option.bind_some]
  rw [field_padded 'T' (by omega) (by decide)]
  simp only [Option.bind_some]
  rw [field_padded ':' (by omega) (by decide)]
  simp only [Option.bind_some]
  rw [field_padded ':' (by omega) (by decide)]
  simp only [Option.bind_some]
  rw [field_padded '.' (by omega) (by decide)]
  simp only [Option.bind_some]
  rw [if_pos ⟨trivial, hvalid, by omega, by omega, by omega⟩, milliOfDay_parts, hmoment]
  rfl

end Calendar

end RoomHub
