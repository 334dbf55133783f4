import RoomHub.Text.Utf8

/-!
# Bytes of texts

A text is found again in its bytes. A text of ASCII characters has one byte for each, and
reading the bytes one by one finds these characters:

> `text?_bytes`: every text; `replaced_bytes`: with nothing replaced, where all is ASCII.
-/

namespace RoomHub.Text.Utf8

/-- Writing a text as bytes and reading them gives the text back. -/
theorem text?_bytes (s : String) : text? (bytes s) = some s := by
  unfold text? bytes String.fromUTF8?
  simp only [String.toUTF8_eq_toByteArray, Array.toArray_toList]
  rw [dif_pos s.isValidUTF8]
  exact congrArg some (String.toByteArray_inj.mp rfl)

/-- The bytes of a text determine it. -/
theorem bytes_injective {s t : String} (h : bytes s = bytes t) : s = t := by
  have harr : s.toUTF8.data = t.toUTF8.data := Array.toList_inj.mp h
  have hba : s.toUTF8 = t.toUTF8 := ByteArray.ext harr
  exact String.toByteArray_inj.mp hba

/-- A text of ASCII characters has one byte for each. -/
theorem bytes_of_ascii {s : String} (hs : ∀ c ∈ s.toList, c.toNat < 128) :
    bytes s = s.toList.map fun c => UInt8.ofNat c.toNat := by
  have hflat : bytes s = s.toList.flatMap String.utf8EncodeChar := by
    unfold bytes
    rw [String.toUTF8_eq_toByteArray, ← String.utf8Encode_toList]
    exact List.toList_data_toByteArray
  have hone : ∀ c ∈ s.toList, String.utf8EncodeChar c = [UInt8.ofNat c.toNat] := by
    intro c hc
    have hlt := hs c hc
    have hlow : c.val.toNat ≤ 127 := by
      unfold Char.toNat at hlt
      omega
    unfold String.utf8EncodeChar
    exact if_pos hlow
  rw [hflat, List.flatMap_def, List.map_congr_left hone, ← List.flatMap_def, List.map_eq_flatMap]

theorem toNat_byte {c : Char} (hc : c.toNat < 128) : (UInt8.ofNat c.toNat).toNat = c.toNat := by
  rw [UInt8.toNat_ofNat']
  omega

/-- Read one by one, the bytes of ASCII characters are these characters. -/
theorem units_of_ascii {cs : List Char} (hcs : ∀ c ∈ cs, c.toNat < 128) :
    units .none (cs.map fun c => UInt8.ofNat c.toNat) = cs.map some := by
  induction cs with
  | nil => rfl
  | cons c cs ih =>
    have hlt := hcs c List.mem_cons_self
    have hbyte := toNat_byte hlt
    have hbegin : begin (UInt8.ofNat c.toNat) = (.char c, .none) := by
      unfold begin
      rw [if_pos (UInt8.lt_iff_toNat_lt.mpr (by rw [hbyte]; exact hlt)), hbyte, Char.ofNat_toNat]
    rw [List.map_cons, List.map_cons, ← ih fun c' hc' => hcs c' (List.mem_cons_of_mem _ hc')]
    simp only [units, feed, hbegin]

/-- Nothing is replaced in a text of ASCII characters. -/
theorem replaced_bytes {s : String} (hs : ∀ c ∈ s.toList, c.toNat < 128) (c : Char) :
    replaced c (bytes s) = s := by
  unfold replaced
  rw [bytes_of_ascii hs, units_of_ascii hs, List.map_map]
  simp [Function.comp_def]

end RoomHub.Text.Utf8
