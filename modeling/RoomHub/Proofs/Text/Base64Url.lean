import RoomHub.Text.Base64Url

/-!
# Base64 without padding is canonical

A byte sequence is regrouped into sextets and each sextet is written as one character.
Both steps can be undone, and only in one way:

> `decode?_eq_some_iff`: a text decodes to some bytes exactly when it is what encoding
> writes for them.
-/

namespace RoomHub.Text.Base64Url

/-! ## Characters -/

/-- A character has one value, and the value has no other character. -/
theorem char_of_value? {c : Char} {n : Nat} (h : value? c = some n) : n < 64 ∧ char n = c := by
  unfold value? at h
  split at h
  next hc =>
    have hlow : 65 ≤ c.toNat := hc.1
    have hhigh : c.toNat ≤ 90 := hc.2
    obtain rfl : c.toNat - 65 = n := Option.some.inj h
    have hback : 65 + (c.toNat - 65) = c.toNat := by omega
    refine ⟨by omega, ?_⟩
    unfold char
    rw [if_pos (by omega), show 'A'.toNat = 65 from rfl, hback, Char.ofNat_toNat]
  split at h
  next hc =>
    have hlow : 97 ≤ c.toNat := hc.1
    have hhigh : c.toNat ≤ 122 := hc.2
    obtain rfl : c.toNat - 97 + 26 = n := Option.some.inj h
    have hback : 97 + (c.toNat - 97 + 26 - 26) = c.toNat := by omega
    refine ⟨by omega, ?_⟩
    unfold char
    rw [if_neg (by omega), if_pos (by omega), show 'a'.toNat = 97 from rfl, hback,
      Char.ofNat_toNat]
  split at h
  next hc =>
    have hlow : 48 ≤ c.toNat := hc.1
    have hhigh : c.toNat ≤ 57 := hc.2
    obtain rfl : c.toNat - 48 + 52 = n := Option.some.inj h
    have hback : 48 + (c.toNat - 48 + 52 - 52) = c.toNat := by omega
    refine ⟨by omega, ?_⟩
    unfold char
    rw [if_neg (by omega), if_neg (by omega), if_pos (by omega), show '0'.toNat = 48 from rfl,
      hback, Char.ofNat_toNat]
  split at h
  next hc =>
    cases h
    exact ⟨by decide, hc.symm⟩
  split at h
  next hc =>
    cases h
    exact ⟨by decide, hc.symm⟩
  next => cases h

/-- A character has a value below 64 exactly if it is the digit of that value. -/
theorem value?_eq_some_iff {c : Char} {n : Nat} : value? c = some n ↔ n < 64 ∧ char n = c := by
  constructor
  · exact char_of_value?
  · rintro ⟨hn, rfl⟩
    exact value?_char n hn

/-- Characters have values exactly if they are the digits of those values. -/
theorem mapM_value?_eq_some_iff {cs : List Char} {vs : List Nat} :
    cs.mapM value? = some vs ↔ (∀ v ∈ vs, v < 64) ∧ vs.map char = cs := by
  induction cs generalizing vs with
  | nil =>
    simp only [List.mapM_nil, Option.pure_def, Option.some.injEq, List.map_eq_nil_iff]
    constructor
    · rintro rfl
      exact ⟨fun v hv => (nomatch hv), rfl⟩
    · rintro ⟨-, rfl⟩
      rfl
  | cons c cs ih =>
    simp only [List.mapM_cons, Option.pure_def, Option.bind_eq_bind, Option.bind_eq_some_iff,
      ih, value?_eq_some_iff, Option.some.injEq]
    constructor
    · rintro ⟨v, ⟨hv, rfl⟩, vs, ⟨hvs, rfl⟩, rfl⟩
      exact ⟨List.forall_mem_cons.mpr ⟨hv, hvs⟩, rfl⟩
    · rintro ⟨hvs, hmap⟩
      cases vs with
      | nil => cases hmap
      | cons v vs =>
        obtain ⟨hv, hvs⟩ := List.forall_mem_cons.mp hvs
        rw [List.map_cons, List.cons.injEq] at hmap
        exact ⟨v, ⟨hv, hmap.1⟩, vs, ⟨hvs, hmap.2⟩, rfl⟩

/-! ## Sextets -/

/-- The values below 64 that bytes are regrouped into, the last one filled up with zeros. -/
def sextets : List UInt8 → List Nat
  | [] => []
  | [a] => [a.toNat / 4, a.toNat % 4 * 16]
  | [a, b] => [a.toNat / 4, a.toNat % 4 * 16 + b.toNat / 16, b.toNat % 16 * 4]
  | a :: b :: c :: rest =>
    a.toNat / 4 :: (a.toNat % 4 * 16 + b.toNat / 16) :: (b.toNat % 16 * 4 + c.toNat / 64) ::
      c.toNat % 64 :: sextets rest

/-- Bytes are encoded as the digits of the values they are regrouped into. -/
theorem encode_eq (bs : List UInt8) : encode bs = (sextets bs).map char := by
  fun_induction sextets bs with
  | case1 | case2 | case3 => rfl
  | case4 a b c rest ih =>
    rw [encode, ih]
    rfl

theorem lt_of_mem_sextets {bs : List UInt8} : ∀ v ∈ sextets bs, v < 64 := by
  fun_induction sextets bs with
  | case1 => exact fun v hv => (nomatch hv)
  | case2 a =>
    have ha := a.toNat_lt
    simp only [List.forall_mem_cons, List.not_mem_nil, false_implies, implies_true, and_true]
    omega
  | case3 a b =>
    have ha := a.toNat_lt
    have hb := b.toNat_lt
    simp only [List.forall_mem_cons, List.not_mem_nil, false_implies, implies_true, and_true]
    omega
  | case4 a b c rest ih =>
    have ha := a.toNat_lt
    have hb := b.toNat_lt
    have hc := c.toNat_lt
    simp only [List.forall_mem_cons]
    exact ⟨by omega, by omega, by omega, by omega, ih⟩

theorem ofNat_eq_of_toNat_eq {n : Nat} {a : UInt8} (h : n = a.toNat) : UInt8.ofNat n = a := by
  rw [h, UInt8.ofNat_toNat]

/-- Regrouping is undone by reading. -/
theorem ofValues_sextets (bs : List UInt8) : ofValues (sextets bs) = some bs := by
  fun_induction sextets bs with
  | case1 => rfl
  | case2 a =>
    have ha := a.toNat_lt
    rw [ofValues, if_pos (by omega), ofNat_eq_of_toNat_eq (a := a) (by omega)]
  | case3 a b =>
    have ha := a.toNat_lt
    have hb := b.toNat_lt
    rw [ofValues, if_pos (by omega), ofNat_eq_of_toNat_eq (a := a) (by omega),
      ofNat_eq_of_toNat_eq (a := b) (by omega)]
  | case4 a b c rest ih =>
    have ha := a.toNat_lt
    have hb := b.toNat_lt
    have hc := c.toNat_lt
    rw [ofValues, ih, Option.map_some, ofNat_eq_of_toNat_eq (a := a) (by omega),
      ofNat_eq_of_toNat_eq (a := b) (by omega), ofNat_eq_of_toNat_eq (a := c) (by omega)]

theorem toNat_of_lt {n : Nat} (hn : n < 256) : (UInt8.ofNat n).toNat = n :=
  UInt8.toNat_ofNat_of_lt' hn

/-- What is read was regrouped: a last group that is not full has zeros behind its bytes. -/
theorem sextets_of_ofValues {vs : List Nat} {bs : List UInt8} (hvs : ∀ v ∈ vs, v < 64)
    (h : ofValues vs = some bs) : sextets bs = vs := by
  fun_induction ofValues vs generalizing bs with
  | case1 =>
    cases h
    rfl
  | case2 => cases h
  | case3 p q hq =>
    cases h
    simp only [List.forall_mem_cons] at hvs
    have hbyte : (UInt8.ofNat (4 * p + q / 16)).toNat = 4 * p + q / 16 :=
      toNat_of_lt (by omega)
    simp only [sextets, hbyte, List.cons.injEq, and_true]
    omega
  | case4 => cases h
  | case5 p q r hr =>
    cases h
    simp only [List.forall_mem_cons] at hvs
    have hfirst : (UInt8.ofNat (4 * p + q / 16)).toNat = 4 * p + q / 16 :=
      toNat_of_lt (by omega)
    have hsecond : (UInt8.ofNat (q % 16 * 16 + r / 4)).toNat = q % 16 * 16 + r / 4 :=
      toNat_of_lt (by omega)
    simp only [sextets, hfirst, hsecond, List.cons.injEq, and_true]
    omega
  | case6 => cases h
  | case7 p q r s rest ih =>
    simp only [List.forall_mem_cons] at hvs
    obtain ⟨tail, htail, rfl⟩ := Option.map_eq_some_iff.mp h
    have hfirst : (UInt8.ofNat (4 * p + q / 16)).toNat = 4 * p + q / 16 :=
      toNat_of_lt (by omega)
    have hsecond : (UInt8.ofNat (q % 16 * 16 + r / 4)).toNat = q % 16 * 16 + r / 4 :=
      toNat_of_lt (by omega)
    have hthird : (UInt8.ofNat (r % 4 * 64 + s)).toNat = r % 4 * 64 + s :=
      toNat_of_lt (by omega)
    simp only [sextets, hfirst, hsecond, hthird, ih hvs.2.2.2.2 htail, List.cons.injEq, and_true]
    omega

/-! ## Texts -/

/-- Only what encoding writes can be decoded. -/
theorem decode?_eq_some_iff {cs : List Char} {bs : List UInt8} :
    decode? cs = some bs ↔ cs = encode bs := by
  unfold decode?
  rw [encode_eq, Option.bind_eq_some_iff]
  constructor
  · rintro ⟨vs, hmap, hread⟩
    obtain ⟨hlt, rfl⟩ := mapM_value?_eq_some_iff.mp hmap
    rw [sextets_of_ofValues hlt hread]
  · rintro rfl
    exact ⟨sextets bs, mapM_value?_eq_some_iff.mpr ⟨lt_of_mem_sextets, rfl⟩, ofValues_sextets bs⟩

/-- Encoded bytes are decoded as they were. -/
theorem decode?_encode (bs : List UInt8) : decode? (encode bs) = some bs :=
  decode?_eq_some_iff.mpr rfl

theorem char_ne_dot : ∀ n < 64, char n ≠ '.' := by decide

/-- No encoded text holds a dot. -/
theorem dot_not_mem_encode (bs : List UInt8) : '.' ∉ encode bs := by
  rw [encode_eq, List.mem_map]
  rintro ⟨v, hv, hdot⟩
  exact char_ne_dot v (lt_of_mem_sextets v hv) hdot

end RoomHub.Text.Base64Url
