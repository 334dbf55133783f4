import Mathlib.Algebra.Group.Nat.Defs
import RoomHub.Text.Hex

/-!
# Reading hexadecimal digits back

> `toNat?_ofNat`: the low digits of a number read as the number without what stands above
> them;
> `toNat?_lt`: how large a number that many digits can write;
> `ofNat_of_toNat?`: digits that were read are written again in lower case.
-/

namespace RoomHub.Text.Hex

/-- Printed digits are read behind any others, as the last digits of the number. -/
theorem foldlM_ofNat (w n m : Nat) :
    (ofNat w n).foldlM (fun n c => (value? c).map (16 * n + ·)) m
      = some (m * 16 ^ w + n % 16 ^ w) := by
  induction w generalizing m with
  | zero => simp [ofNat, Nat.mod_one]
  | succ w ih =>
    have hlt : (n >>> (4 * w)) % 16 < 16 := Nat.mod_lt _ (by decide)
    have hshift : n >>> (4 * w) = n / 16 ^ w := by
      rw [Nat.shiftRight_eq_div_pow, Nat.pow_mul]
    have hsplit : n % 16 ^ (w + 1) = n % 16 ^ w + 16 ^ w * (n / 16 ^ w % 16) := by
      rw [Nat.pow_succ, Nat.mod_mul]
    rw [ofNat, List.foldlM_cons, value?_digit _ hlt]
    show List.foldlM _ (16 * m + _) _ = _
    rw [ih, hshift, hsplit, Nat.pow_succ]
    congr 1
    grind

/-- So many low digits give the number without what stands above them. -/
theorem toNat?_ofNat (w n : Nat) : toNat? (ofNat w n) = some (n % 16 ^ w) := by
  have h := foldlM_ofNat w n 0
  rwa [Nat.zero_mul, Nat.zero_add] at h

theorem length_ofNat (w n : Nat) : (ofNat w n).length = w := by
  induction w with
  | zero => rfl
  | succ w ih => exact congrArg (· + 1) ih

variable {c : Char} {cs : List Char} {k m : Nat}

/-- A digit is worth less than sixteen. -/
theorem value?_lt (h : value? c = some k) : k < 16 := by
  unfold value? at h
  split at h
  next hc =>
    have hle : c.toNat ≤ '9'.toNat := hc.2
    cases h
    exact Nat.lt_of_le_of_lt (Nat.sub_le_sub_right hle _) (by decide)
  next =>
    split at h
    next hc =>
      have hle : c.toNat ≤ 'f'.toNat := hc.2
      cases h
      exact Nat.add_lt_add_right (Nat.lt_of_le_of_lt (Nat.sub_le_sub_right hle _) (by decide)) 10
    next =>
      split at h
      next hc =>
        have hle : c.toNat ≤ 'F'.toNat := hc.2
        cases h
        exact Nat.add_lt_add_right (Nat.lt_of_le_of_lt (Nat.sub_le_sub_right hle _) (by decide)) 10
      next => cases h

/-- What is read stays below the power of the digits that were read. -/
theorem foldlM_lt (h : cs.foldlM (fun n c => (value? c).map (16 * n + ·)) m = some k) :
    k < 16 ^ cs.length * (m + 1) := by
  induction cs generalizing m with
  | nil =>
    cases h
    simp
  | cons c cs ih =>
    rw [List.foldlM_cons] at h
    obtain ⟨m', hm', h⟩ := Option.bind_eq_some_iff.mp h
    obtain ⟨x, hx, rfl⟩ := Option.map_eq_some_iff.mp hm'
    have hlt := value?_lt hx
    calc k < 16 ^ cs.length * (16 * m + x + 1) := ih h
      _ ≤ 16 ^ cs.length * (16 * (m + 1)) := Nat.mul_le_mul_left _ (by omega)
      _ = 16 ^ (c :: cs).length * (m + 1) := by
        rw [← Nat.mul_assoc, List.length_cons, Nat.pow_succ]

/-- So many digits stand for a number below that power of sixteen. -/
theorem toNat?_lt (h : toNat? cs = some k) : k < 16 ^ cs.length := by
  have hlt := foldlM_lt h
  rwa [Nat.zero_add, Nat.mul_one] at hlt

/-! ## Letter case -/

/-- The digits of either letter case. -/
def alphabet : List Char := "0123456789abcdefABCDEF".toList

/-- Among the ASCII characters, those with a value are the digits, and the lower-case digit of the
value is the character in lower case. -/
theorem value?_ascii :
    ∀ n < 128, (value? (Char.ofNat n)).all (fun x => digit x = (Char.ofNat n).toLower) = true ∧
      ((value? (Char.ofNat n)).isSome = true → Char.ofNat n ∈ alphabet) := by decide +kernel

theorem toNat_lt_of_value? (h : value? c = some k) : c.toNat < 128 := by
  unfold value? at h
  have hle (d : Char) (hd : d.toNat < 128) (hc : c ≤ d) : c.toNat < 128 :=
    Nat.lt_of_le_of_lt hc hd
  split at h
  next hc => exact hle '9' (by decide) hc.2
  next =>
    split at h
    next hc => exact hle 'f' (by decide) hc.2
    next =>
      split at h
      next hc => exact hle 'F' (by decide) hc.2
      next => cases h

/-- A digit that was read is written again in lower case. -/
theorem digit_of_value? (h : value? c = some k) : digit k = c.toLower := by
  have hascii := (value?_ascii c.toNat (toNat_lt_of_value? h)).1
  rw [Char.ofNat_toNat, h] at hascii
  simpa using hascii

/-- The characters with a value are the digits of either case. -/
theorem isSome_value?_iff : (value? c).isSome = true ↔ c ∈ alphabet := by
  constructor
  · intro h
    obtain ⟨k, hk⟩ := Option.isSome_iff_exists.mp h
    have hascii := (value?_ascii c.toNat (toNat_lt_of_value? hk)).2
    rw [Char.ofNat_toNat] at hascii
    exact hascii h
  · intro h
    have hall : alphabet.all (fun d => (value? d).isSome) = true := by decide
    exact List.all_eq_true.mp hall c h

/-- Digits are read exactly if each of them is one. -/
theorem isSome_foldlM_iff :
    (cs.foldlM (fun n c => (value? c).map (16 * n + ·)) m).isSome = true ↔
      ∀ c ∈ cs, c ∈ alphabet := by
  induction cs generalizing m with
  | nil => simp
  | cons c cs ih =>
    rw [List.foldlM_cons, List.forall_mem_cons, ← isSome_value?_iff]
    cases value? c with
    | none => simp
    | some x =>
      simp only [Option.map_some, Option.bind_eq_bind, Option.bind_some, Option.isSome_some,
        true_and]
      exact ih

/-- What stands above the digits that were read is what was there before. -/
theorem div_of_foldlM (h : cs.foldlM (fun n c => (value? c).map (16 * n + ·)) m = some k) :
    k / 16 ^ cs.length = m := by
  induction cs generalizing m with
  | nil =>
    cases h
    exact Nat.div_one _
  | cons c cs ih =>
    rw [List.foldlM_cons] at h
    obtain ⟨m', hm', h⟩ := Option.bind_eq_some_iff.mp h
    obtain ⟨x, hx, rfl⟩ := Option.map_eq_some_iff.mp hm'
    have hlt := value?_lt hx
    rw [List.length_cons, Nat.pow_succ, ← Nat.div_div_eq_div_mul, ih h]
    omega

/-- What is read is printed as it was written, but in lower case. -/
theorem ofNat_of_foldlM (h : cs.foldlM (fun n c => (value? c).map (16 * n + ·)) m = some k) :
    ofNat cs.length k = cs.map Char.toLower := by
  induction cs generalizing m with
  | nil => rfl
  | cons c cs ih =>
    rw [List.foldlM_cons] at h
    obtain ⟨m', hm', h⟩ := Option.bind_eq_some_iff.mp h
    obtain ⟨x, hx, rfl⟩ := Option.map_eq_some_iff.mp hm'
    have hlt := value?_lt hx
    have hlow : (k >>> (4 * cs.length)) % 16 = x := by
      rw [Nat.shiftRight_eq_div_pow, Nat.pow_mul, div_of_foldlM h]
      omega
    rw [List.length_cons, ofNat, hlow, ih h, digit_of_value? hx, List.map_cons]

/-- Digits that were read are written again in lower case. -/
theorem ofNat_of_toNat? (h : toNat? cs = some k) : ofNat cs.length k = cs.map Char.toLower :=
  ofNat_of_foldlM h

/-- A text is read as a number exactly if it is all digits. -/
theorem exists_toNat?_iff : (∃ k, toNat? cs = some k) ↔ ∀ c ∈ cs, c ∈ alphabet := by
  rw [← Option.isSome_iff_exists]
  exact isSome_foldlM_iff

end RoomHub.Text.Hex
