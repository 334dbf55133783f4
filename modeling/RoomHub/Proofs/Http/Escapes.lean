import Mathlib.Data.List.TakeWhile
import RoomHub.Http.Exchange
import RoomHub.Http.Target
import RoomHub.Proofs.Text.Utf8
import RoomHub.Text.Blank

/-!
# Texts in requests

Any text can stand in a target when every byte of it is escaped. What is escaped holds no
character that cuts a target, so the path, its segments and the fields of the query are
found again, and undoing the escapes gives the text back:

> `parameter?_escaped`: a parameter of the path is any text;
> `fieldText_escaped`: a value of the query is any text of ASCII characters.
-/

namespace RoomHub

/-! ## Cutting and trimming -/

namespace Text

variable {sep : Char} {part rest : List Char}

/-- A text without the separator is not cut. -/
theorem split_of_not_mem (hpart : sep ∉ part) : split sep part = [part] := by
  induction part with
  | nil => rfl
  | cons c part ih =>
    rw [List.mem_cons, not_or] at hpart
    unfold split
    rw [if_neg (Ne.symm hpart.1), ih hpart.2]

/-- The first cut is at the first separator. -/
theorem split_append (hpart : sep ∉ part) :
    split sep (part ++ sep :: rest) = part :: split sep rest := by
  induction part with
  | nil => simp [split]
  | cons c part ih =>
    rw [List.mem_cons, not_or] at hpart
    rw [List.cons_append]
    conv => lhs; unfold split
    rw [if_neg (Ne.symm hpart.1), ih hpart.2]

/-- Parts without the separator are found again when they are written with it between
them. -/
theorem split_join {parts : List (List Char)} (hne : parts ≠ [])
    (hparts : ∀ part ∈ parts, sep ∉ part) : split sep ([sep].intercalate parts) = parts := by
  induction parts with
  | nil => exact absurd rfl hne
  | cons part parts ih =>
    have hpart : sep ∉ part := hparts part List.mem_cons_self
    cases parts with
    | nil =>
      rw [List.intercalate_singleton]
      exact split_of_not_mem hpart
    | cons next parts =>
      have hrest := ih (List.cons_ne_nil next parts) fun p hp =>
        hparts p (List.mem_cons_of_mem part hp)
      rw [List.intercalate_cons_cons, List.append_assoc, List.singleton_append,
        split_append hpart, hrest]

/-- A character of joined parts is one of a part, or the separator. -/
theorem mem_join {parts : List (List Char)} {c : Char} (hc : c ∈ [sep].intercalate parts) :
    c = sep ∨ ∃ part ∈ parts, c ∈ part := by
  induction parts with
  | nil => cases hc
  | cons part parts ih =>
    cases parts with
    | nil =>
      rw [List.intercalate_singleton] at hc
      exact Or.inr ⟨part, List.mem_cons_self, hc⟩
    | cons next parts =>
      rw [List.intercalate_cons_cons, List.mem_append, List.mem_append, List.mem_singleton] at hc
      rcases hc with (hpart | hsep) | hrest
      · exact Or.inr ⟨part, List.mem_cons_self, hpart⟩
      · exact Or.inl hsep
      · rcases ih hrest with hsep | ⟨other, hother, hmem⟩
        · exact Or.inl hsep
        · exact Or.inr ⟨other, List.mem_cons_of_mem part hother, hmem⟩

/-- A text of characters that are not blank has nothing to trim. -/
theorem trim_of_not_blank {s : String} (hs : ∀ c ∈ s.toList, isBlankChar c = false) :
    trim s = s := by
  have hkeep : ∀ cs : List Char, (∀ c ∈ cs, isBlankChar c = false) →
      cs.dropWhile isBlankChar = cs := by
    intro cs hcs
    refine List.dropWhile_eq_self_iff.mpr fun hpos => ?_
    rw [hcs _ (List.getElem_mem hpos)]
    exact Bool.false_ne_true
  unfold trim
  rw [hkeep _ hs, hkeep _ fun c hc => hs c (List.mem_reverse.mp hc), List.reverse_reverse,
    String.ofList_toList]

end Text

namespace Http

/-- Visible ASCII characters and spaces can be read off the value of a header. -/
theorem visibleText?_bytes {s : String} (hs : ∀ c ∈ s.toList, ' ' ≤ c ∧ c ≤ '~') :
    Request.visibleText? (Text.Utf8.bytes s) = some s := by
  have hbounds : ∀ c ∈ s.toList, 32 ≤ c.toNat ∧ c.toNat ≤ 126 := hs
  have hascii : ∀ c ∈ s.toList, c.toNat < 128 := fun c hc => by
    have hle := (hbounds c hc).2
    omega
  unfold Request.visibleText?
  rw [if_pos, Text.Utf8.text?_bytes]
  rw [Text.Utf8.bytes_of_ascii hascii, List.all_map, List.all_eq_true]
  intro c hc
  obtain ⟨hlow, hhigh⟩ := hbounds c hc
  have hbyte := Text.Utf8.toNat_byte (hascii c hc)
  have hvisible : 0x20 ≤ UInt8.ofNat c.toNat ∧ UInt8.ofNat c.toNat < 0x7F := by
    rw [UInt8.le_iff_toNat_le, UInt8.lt_iff_toNat_lt, hbyte]
    exact ⟨hlow, Nat.lt_succ_of_le hhigh⟩
  simp [hvisible]

/-! ## Targets -/

section Targets

variable {path query : List Char} (hpath : ∀ c ∈ path, c ≠ '?' ∧ c ≠ '#')
  (hquery : '#' ∉ query)

include hpath in
/-- A target without a question mark is all path. -/
theorem pathOf_ofList : pathOf (String.ofList path) = path := by
  unfold pathOf
  rw [String.toList_ofList]
  refine List.takeWhile_eq_self_iff.mpr fun c hc => ?_
  simpa using hpath c hc

include hpath in
/-- The path ends where the query begins. -/
theorem pathOf_append : pathOf (String.ofList (path ++ '?' :: query)) = path := by
  unfold pathOf
  rw [String.toList_ofList, List.takeWhile_append_of_pos fun c hc => by simpa using hpath c hc]
  exact List.append_nil path

include hpath hquery in
/-- The query is what stands behind the first question mark. -/
theorem queryOf_append : queryOf (String.ofList (path ++ '?' :: query)) = query := by
  have hwhole : (path ++ '?' :: query).takeWhile (· ≠ '#') = path ++ '?' :: query := by
    refine List.takeWhile_eq_self_iff.mpr fun c hc => ?_
    rcases List.mem_append.mp hc with hc | hc
    · simpa using (hpath c hc).2
    · rcases List.mem_cons.mp hc with rfl | hc
      · rfl
      · have hne : c ≠ '#' := fun heq => hquery (heq ▸ hc)
        simpa using hne
  unfold queryOf
  rw [String.toList_ofList, hwhole,
    List.dropWhile_append_of_pos fun c hc => by simpa using (hpath c hc).1]
  rfl

end Targets

/-! ## Escapes -/

/-- Every byte as a percent sign and two digits. -/
def escaped (bs : List UInt8) : List Char := bs.flatMap fun b => '%' :: Text.Hex.ofNat 2 b.toNat

/-- Whether a character has no meaning of its own in a target. -/
def isInert (c : Char) : Bool := c ∉ ['/', '?', '#', '&', '=', '+']

theorem ne_of_isInert {c d : Char} (hc : isInert c = true) (hd : isInert d = false) : c ≠ d := by
  intro heq
  rw [heq, hd] at hc
  cases hc

/-- What is made of inert characters holds no other. -/
theorem not_mem_of_isInert {part : List Char} (hpart : ∀ c ∈ part, isInert c = true) {c : Char}
    (hc : isInert c = false) : c ∉ part :=
  fun hmem => ne_of_isInert (hpart c hmem) hc rfl

theorem isInert_digit : ∀ n < 16, isInert (Text.Hex.digit n) = true := by decide

/-- An escaped text is made of inert characters only, so nothing takes it for syntax. -/
theorem isInert_of_mem_escaped {bs : List UInt8} {c : Char} (hc : c ∈ escaped bs) :
    isInert c = true := by
  obtain ⟨b, -, hmem⟩ := List.mem_flatMap.mp hc
  have hlow : ∀ n, isInert (Text.Hex.digit (n % 16)) = true := fun n =>
    isInert_digit _ (Nat.mod_lt n (by decide))
  simp only [Text.Hex.ofNat, List.mem_cons, List.not_mem_nil, or_false] at hmem
  rcases hmem with rfl | rfl | rfl
  · rfl
  · exact hlow _
  · exact hlow _

/-- Undoing the escapes gives the bytes back. -/
theorem percentDecode_escaped (bs : List UInt8) : percentDecode (escaped bs) = bs := by
  induction bs with
  | nil => rfl
  | cons b bs ih =>
    have hlt := b.toNat_lt
    have hhigh : (b.toNat >>> (4 * 1)) % 16 < 16 := Nat.mod_lt _ (by decide)
    have hlow : (b.toNat >>> (4 * 0)) % 16 < 16 := Nat.mod_lt _ (by decide)
    have hbyte : 16 * ((b.toNat >>> (4 * 1)) % 16) + (b.toNat >>> (4 * 0)) % 16 = b.toNat := by
      rw [Nat.shiftRight_eq_div_pow, Nat.shiftRight_eq_div_pow]
      omega
    show percentDecode ('%' :: Text.Hex.digit _ :: Text.Hex.digit _ :: escaped bs) = b :: bs
    rw [percentDecode, Text.Hex.value?_digit _ hhigh, Text.Hex.value?_digit _ hlow]
    simp only [hbyte, ih, UInt8.ofNat_toNat]

/-- Any text can be a parameter of the path. -/
theorem parameter?_escaped (s : String) :
    parameter? (String.ofList (escaped (Text.Utf8.bytes s))) = some s := by
  unfold parameter?
  rw [String.toList_ofList, percentDecode_escaped, Text.Utf8.text?_bytes]

/-- Any text of ASCII characters can be a value in the query. -/
theorem fieldText_escaped {s : String} (hs : ∀ c ∈ s.toList, c.toNat < 128) :
    fieldText (escaped (Text.Utf8.bytes s)) = s := by
  have hplus : (escaped (Text.Utf8.bytes s)).map (fun c => if c = '+' then ' ' else c)
      = escaped (Text.Utf8.bytes s) := by
    refine (List.map_congr_left fun c hc => if_neg ?_).trans (List.map_id' _)
    exact ne_of_isInert (isInert_of_mem_escaped hc) rfl
  unfold fieldText
  rw [hplus, percentDecode_escaped, Text.Utf8.replaced_bytes hs]

/-! ## Targets out of escaped texts -/

section Written

variable {parts : List (List Char)} (hparts : ∀ part ∈ parts, ∀ c ∈ part, isInert c = true)

include hparts

/-- A path written out of such parts has nothing that ends it. -/
theorem ne_of_mem_join : ∀ c ∈ ['/'].intercalate parts, c ≠ '?' ∧ c ≠ '#' := by
  intro c hc
  rcases Text.mem_join hc with rfl | ⟨part, hpart, hmem⟩
  · decide
  · have hinert := hparts part hpart c hmem
    exact ⟨ne_of_isInert hinert rfl, ne_of_isInert hinert rfl⟩

/-- Parts without slashes are the segments of the path that joins them. -/
theorem segments_join (hne : parts ≠ []) :
    segments (['/'].intercalate parts) = parts.map String.ofList := by
  unfold segments
  rw [Text.split_join hne fun part hpart => not_mem_of_isInert (hparts part hpart) rfl]

end Written

/-- No field ends before its end. -/
theorem not_mem_field {name : List Char} {bs : List UInt8} {c : Char}
    (hname : ∀ c ∈ name, isInert c = true) (hc : isInert c = false) (hne : c ≠ '=') :
    c ∉ name ++ '=' :: escaped bs := by
  intro hmem
  rcases List.mem_append.mp hmem with hmem | hmem
  · exact not_mem_of_isInert hname hc hmem
  · rcases List.mem_cons.mp hmem with heq | hmem
    · exact hne heq
    · exact not_mem_of_isInert (fun c hc => isInert_of_mem_escaped hc) hc hmem

/-- A query with one field has that field. -/
theorem queryField?_escaped {name s : String} (hname : ∀ c ∈ name.toList, isInert c = true)
    (hfield : fieldText name.toList = name) (hs : ∀ c ∈ s.toList, c.toNat < 128) :
    queryField? (name.toList ++ '=' :: escaped (Text.Utf8.bytes s)) name = some (some s) := by
  have hwhole : '&' ∉ name.toList ++ '=' :: escaped (Text.Utf8.bytes s) :=
    not_mem_field hname rfl (by decide)
  have hbefore : ∀ c ∈ name.toList, decide (c ≠ '=') = true := by
    intro c hc
    have hne : c ≠ '=' := fun heq => not_mem_of_isInert hname rfl (heq ▸ hc)
    simpa using hne
  unfold queryField? queryFields
  rw [Text.split_of_not_mem hwhole, List.filter_cons_of_pos (by simp), List.filter_nil,
    List.map_singleton, List.takeWhile_append_of_pos hbefore, List.dropWhile_append_of_pos hbefore]
  simp only [List.takeWhile_cons, List.dropWhile_cons, ne_eq, not_true_eq_false, decide_false,
    Bool.false_eq_true, if_false, List.append_nil, List.drop_succ_cons, List.drop_zero, hfield,
    fieldText_escaped hs, decide_true, List.filter_cons_of_pos, List.filter_nil]

end Http

end RoomHub
