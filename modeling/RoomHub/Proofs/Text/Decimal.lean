import Mathlib.Algebra.Group.Nat.Defs
import RoomHub.Text.Decimal

/-!
# Reading decimal digits back

A number is written in digits, without a leading zero, and the digits read as the number:

> `toNat_ofNat`, `toNat_padded`: leading zeros added or not, the digits give the number.
-/

namespace RoomHub.Text.Decimal

/-! ## Runs of digits -/

/-- A text that does not go on with a digit. -/
def NoDigit (rest : List Char) : Prop := ∀ c ∈ rest.head?, isDigit c = false

theorem noDigit_cons {c : Char} {rest : List Char} (hc : isDigit c = false) :
    NoDigit (c :: rest) := by
  intro d hd
  cases hd
  exact hc

section Run

variable {ds rest : List Char} (hds : ∀ d ∈ ds, isDigit d = true) (hrest : NoDigit rest)

include hds hrest

/-- A run of digits ends where the text does not go on with one. -/
theorem takeWhile_isDigit_append : (ds ++ rest).takeWhile isDigit = ds := by
  rw [List.takeWhile_append_of_pos hds]
  cases rest with
  | nil => exact List.append_nil ds
  | cons c rest =>
    rw [List.takeWhile_cons_of_neg (Bool.not_eq_true _ ▸ hrest c rfl), List.append_nil]

theorem dropWhile_isDigit_append : (ds ++ rest).dropWhile isDigit = rest := by
  rw [List.dropWhile_append_of_pos hds]
  cases rest with
  | nil => rfl
  | cons c rest => exact List.dropWhile_cons_of_neg (Bool.not_eq_true _ ▸ hrest c rfl)

end Run

/-! ## The digits of a number -/

/-- A number is printed in digits that stand for it. -/
theorem toNat_ofNat (n : Nat) : toNat (ofNat n) = n :=
  Nat.ofDigitChars_toDigits (by decide) (by decide)

theorem isDigit_of_mem_ofNat (n : Nat) : ∀ c ∈ ofNat n, isDigit c = true := by
  intro c hc
  have hdigit : c.isDigit = true := Nat.isDigit_of_mem_toDigits (by decide) (by decide) hc
  exact hdigit

theorem ofNat_ne_nil (n : Nat) : ofNat n ≠ [] := Nat.toDigits_ne_nil

/-- The digits of a number are those of its tenth, and the last one. -/
theorem ofNat_eq (n : Nat) :
    ofNat n = if n < 10 then [n.digitChar] else ofNat (n / 10) ++ [(n % 10).digitChar] :=
  Nat.toDigits_eq_if (by decide)

theorem digitChar_ne_zero : ∀ n < 10, n ≠ 0 → n.digitChar ≠ '0' := by decide

/-- Only zero begins with a zero. -/
theorem head?_ofNat {n : Nat} (hn : n ≠ 0) : (ofNat n).head? ≠ some '0' := by
  induction n using Nat.strongRecOn with
  | ind n ih =>
    rw [ofNat_eq]
    split
    next hlt =>
      rw [List.head?_cons, ne_eq, Option.some.injEq]
      exact digitChar_ne_zero n hlt hn
    next hge =>
      obtain ⟨c, cs, hc⟩ := List.exists_cons_of_ne_nil (ofNat_ne_nil (n / 10))
      have hfirst := ih (n / 10) (by omega) (by omega)
      rw [hc] at hfirst ⊢
      exact hfirst

/-- A leading zero is the only digit. -/
theorem length_ofNat_of_head? {n : Nat} (h : (ofNat n).head? = some '0') :
    (ofNat n).length = 1 := by
  have hn : n = 0 := Classical.byContradiction fun hn => head?_ofNat hn h
  subst hn
  rfl

/-! ## Padded digits -/

theorem toNat_replicate_zero (k : Nat) : toNat (List.replicate k '0') = 0 := by
  induction k with
  | zero => rfl
  | succ k ih => exact ih

/-- The value of digits goes on from the value of those in front. -/
theorem toNat_append (cs ds : List Char) :
    toNat (cs ++ ds) = Nat.ofDigitChars 10 ds (toNat cs) := List.foldl_append

/-- Padding leaves the value. -/
theorem toNat_padded (width n : Nat) : toNat (padded width n) = n := by
  unfold padded
  rw [toNat_append, toNat_replicate_zero]
  exact toNat_ofNat n

theorem isDigit_of_mem_padded (width n : Nat) : ∀ c ∈ padded width n, isDigit c = true := by
  intro c hc
  rcases List.mem_append.mp hc with hzero | hdigit
  · rw [List.eq_of_mem_replicate hzero]
    rfl
  · exact isDigit_of_mem_ofNat n c hdigit

theorem le_length_padded (width n : Nat) : width ≤ (padded width n).length := by
  unfold padded
  rw [List.length_append, List.length_replicate]
  omega

/-- A number that is small enough fills its width. -/
theorem length_padded {width n : Nat} (hn : n < 10 ^ width) (hwidth : 0 < width) :
    (padded width n).length = width := by
  have hlen : (ofNat n).length ≤ width := (Nat.length_toDigits_le_iff (by decide) hwidth).mpr hn
  unfold padded
  rw [List.length_append, List.length_replicate]
  omega

end RoomHub.Text.Decimal
