import RoomHub.Json
import RoomHub.Proofs.Text.Decimal
import RoomHub.Proofs.Text.Hex
import RoomHub.Proofs.Text.Utf8

/-!
# Reading what was written

The text of a value reads as the value, whatever it holds: characters that are escaped,
strings that are no text, numbers of any size, containers at any depth.

> `parse?_render`: `parse? v.render = some v`;
> `parseBytes?_render`: the same through the bytes of the text;
> `render_injective`: so two values never share a text.

A reader leaves the text behind what it read, so every lemma has a rest behind what is
read. Strings, arrays and objects close themselves; a number ends where the rest does not
go on with one (`NoNumeral`), as what follows an item or a member never does. The length
of the text is fuel enough, because every container spends two characters on itself and
every item but the last one on its comma.
-/

namespace RoomHub

open Text

/-! ## Numbers -/

namespace Numeral

/-- A text that does not go on with a number. -/
def NoNumeral (rest : List Char) : Prop :=
  ∀ c ∈ rest.head?, Decimal.isDigit c = false ∧ c ≠ '.' ∧ c ≠ 'e' ∧ c ≠ 'E'

theorem noNumeral_nil : NoNumeral [] := fun _ hc => (nomatch hc)

theorem noNumeral_cons {c : Char} {rest : List Char}
    (hc : Decimal.isDigit c = false ∧ c ≠ '.' ∧ c ≠ 'e' ∧ c ≠ 'E') : NoNumeral (c :: rest) := by
  intro d hd
  cases hd
  exact hc

theorem NoNumeral.noDigit {rest : List Char} (h : NoNumeral rest) : Decimal.NoDigit rest :=
  fun c hc => (h c hc).1

end Numeral

namespace Json

open Numeral (NoNumeral)

variable {rest : List Char}

theorem exists_cons_ofNat (n : Nat) :
    ∃ c cs, Decimal.ofNat n = c :: cs ∧ Decimal.isDigit c = true := by
  obtain ⟨c, cs, hc⟩ := List.exists_cons_of_ne_nil (Decimal.ofNat_ne_nil n)
  exact ⟨c, cs, hc, Decimal.isDigit_of_mem_ofNat n c (hc ▸ List.mem_cons_self)⟩

/-- The power of ten behind an `e` is read back. -/
theorem exponent_ofInt (e : Int) (hrest : NoNumeral rest) :
    exponent (Decimal.ofInt e ++ rest) = some (e, rest) := by
  have hds := Decimal.isDigit_of_mem_ofNat e.natAbs
  have htake := Decimal.takeWhile_isDigit_append hds hrest.noDigit
  have hdrop := Decimal.dropWhile_isDigit_append hds hrest.noDigit
  have hne : (Decimal.ofNat e.natAbs).isEmpty = false :=
    List.isEmpty_eq_false_iff.mpr (Decimal.ofNat_ne_nil _)
  unfold exponent Decimal.ofInt
  by_cases he : e < 0
  · have habs : -(e.natAbs : Int) = e := by omega
    rw [if_pos he]
    simp only [List.cons_append, htake, hdrop, hne, Decimal.toNat_ofNat, habs, if_true,
      Bool.false_eq_true, if_false]
  · have habs : (e.natAbs : Int) = e := by omega
    obtain ⟨c, cs, hc, hdigit⟩ := exists_cons_ofNat e.natAbs
    rw [if_neg he]
    split
    next negative after heq =>
      -- the first digit is no sign
      have hsign : negative = false ∧ after = Decimal.ofNat e.natAbs ++ rest := by
        rw [hc] at heq ⊢
        split at heq
        next hminus =>
          rw [(List.cons.inj hminus).1] at hdigit
          cases hdigit
        next hplus =>
          rw [(List.cons.inj hplus).1] at hdigit
          cases hdigit
        next =>
          obtain ⟨hneg, hafter⟩ := Prod.mk.inj heq
          exact ⟨hneg.symm, hafter.symm⟩
      rw [hsign.1, hsign.2]
      simp only [htake, hdrop, hne, Decimal.toNat_ofNat, habs, Bool.false_eq_true, if_false]

/-- The digits of a number are the whole part of a numeral. -/
theorem whole_ofNat (n : Nat) : ¬((Decimal.ofNat n).isEmpty = true ∨
    ((Decimal.ofNat n).head? = some '0' ∧ (Decimal.ofNat n).length > 1)) := by
  rintro (hempty | ⟨hzero, hlong⟩)
  · exact Decimal.ofNat_ne_nil n (List.isEmpty_iff.mp hempty)
  · rw [Decimal.length_ofNat_of_head? hzero] at hlong
    omega

/-- What is written behind the digits of a numeral. -/
def power : Option Int → List Char
  | none => []
  | some e => 'e' :: Decimal.ofInt e

/-- A number literal is its sign, its digits and its power of ten. -/
theorem render_eq (n : Numeral) :
    n.render = (if n.negative then ['-'] else [])
      ++ (Decimal.ofNat n.significand ++ power n.scale) := by
  unfold Numeral.render
  rw [List.append_assoc]
  cases n.scale <;> rfl

/-- Digits, with a power of ten behind them or not, are read back. The sign was read before
them. -/
theorem magnitude_power (negative : Bool) (n : Nat) (scale : Option Int)
    (hrest : NoNumeral rest) :
    magnitude negative (Decimal.ofNat n ++ (power scale ++ rest))
      = some (⟨negative, n, scale⟩, rest) := by
  have hds := Decimal.isDigit_of_mem_ofNat n
  have htail : Decimal.NoDigit (power scale ++ rest) := by
    cases scale with
    | none => exact hrest.noDigit
    | some e => exact Decimal.noDigit_cons rfl
  unfold magnitude
  simp only [Decimal.takeWhile_isDigit_append hds htail,
    Decimal.dropWhile_isDigit_append hds htail]
  rw [if_neg (whole_ofNat n)]
  cases scale with
  | some e =>
    simp [power, exponent_ofInt e hrest, Decimal.toNat_ofNat]
  | none =>
    cases rest with
    | nil => simp [power, Decimal.toNat_ofNat]
    | cons c rest =>
      obtain ⟨-, hpoint, hlower, hupper⟩ := hrest c rfl
      simp [power, hpoint, hlower, hupper, Decimal.toNat_ofNat]

/-- What begins with a digit has no sign. -/
theorem numeral_of_isDigit {c : Char} {cs : List Char} (hc : Decimal.isDigit c = true) :
    numeral (c :: cs) = magnitude false (c :: cs) := by
  unfold numeral
  split
  next heq =>
    rw [(List.cons.inj heq).1] at hc
    cases hc
  next => rfl

/-- A number literal is read back where nothing after it could belong to a number. -/
theorem numeral_render (n : Numeral) (hrest : NoNumeral rest) :
    numeral (n.render ++ rest) = some (n, rest) := by
  obtain ⟨negative, significand, scale⟩ := n
  have hread := magnitude_power negative significand scale hrest
  rw [render_eq]
  cases negative with
  | true =>
    show magnitude true (Decimal.ofNat significand ++ power scale ++ rest) = _
    rw [List.append_assoc]
    exact hread
  | false =>
    show numeral (Decimal.ofNat significand ++ power scale ++ rest) = _
    obtain ⟨c, cs, hc, hdigit⟩ := exists_cons_ofNat significand
    rw [List.append_assoc, ← hread, hc]
    exact numeral_of_isDigit hdigit

/-! ## Strings -/

variable {c : Char} {cs : List Char}

/-- A backslash with a letter stands for a character. -/
theorem stringBody_letter {e : Char} (he : unescape? e = some c) (hu : e ≠ 'u') :
    stringBody none ('\\' :: e :: cs) = (stringBody none cs).map (prepend (some c)) := by
  rw [stringBody, he]
  · cases stringBody none cs <;> rfl
  · intro _ _ _ _ _ heq
    exact absurd heq hu

/-- Four digits are enough for a control character. -/
theorem toNat?_control {n : Nat} (hn : n < 0x20) : Hex.toNat? (Hex.ofNat 4 n) = some n := by
  rw [Hex.toNat?_ofNat, Nat.mod_eq_of_lt (by omega)]

/-- A control character is no half of a surrogate pair. -/
theorem isHigh_control {n : Nat} (hn : n < 0x20) : isHigh n = false ∧ isLow n = false := by
  unfold isHigh isLow
  rw [Bool.and_eq_false_iff, Bool.and_eq_false_iff]
  exact ⟨Or.inl (decide_eq_false (by omega)), Or.inl (decide_eq_false (by omega))⟩

/-- Four digits behind `\u` stand for a control character. -/
theorem stringBody_unit {n : Nat} (hn : n < 0x20) (cs : List Char) :
    stringBody none ('\\' :: 'u' :: (Hex.ofNat 4 n ++ cs))
      = (stringBody none cs).map (prepend (some (Char.ofNat n))) := by
  have hunit : Hex.toNat? (Hex.ofNat 4 n) = some n := toNat?_control hn
  obtain ⟨hhigh, hlow⟩ := isHigh_control hn
  simp only [Hex.ofNat] at hunit ⊢
  simp only [List.cons_append, List.nil_append, stringBody]
  rw [hunit]
  show (if isHigh n then _ else if isLow n then _ else _) = _
  rw [hhigh, hlow]
  cases stringBody none cs <;> rfl

/-- Any other character stands for itself. -/
theorem stringBody_plain (hquote : c ≠ '"') (hslash : c ≠ '\\') (hc : ¬c.toNat < 0x20) :
    stringBody none (c :: cs) = (stringBody none cs).map (prepend (some c)) := by
  rw [stringBody, if_neg hc]
  · cases stringBody none cs <;> rfl
  · exact hquote
  · intro _ _ _ _ _ heq
    exact absurd heq hslash
  · intro _ _ heq
    exact absurd heq hslash

/-- A character is written with a letter, as four digits, or as itself. -/
theorem escape_cases (c : Char) :
    (∃ e, unescape? e = some c ∧ e ≠ 'u' ∧ escape c = ['\\', e]) ∨
    (c.toNat < 0x20 ∧ escape c = '\\' :: 'u' :: Hex.ofNat 4 c.toNat) ∨
    (c ≠ '"' ∧ c ≠ '\\' ∧ ¬c.toNat < 0x20 ∧ escape c = [c]) := by
  by_cases hnamed : c ∈ ['"', '\\', '\x08', '\t', '\n', '\x0c', '\r']
  · left
    simp only [List.mem_cons, List.not_mem_nil, or_false] at hnamed
    rcases hnamed with rfl | rfl | rfl | rfl | rfl | rfl | rfl
    · exact ⟨'"', rfl, by decide, rfl⟩
    · exact ⟨'\\', rfl, by decide, rfl⟩
    · exact ⟨'b', rfl, by decide, rfl⟩
    · exact ⟨'t', rfl, by decide, rfl⟩
    · exact ⟨'n', rfl, by decide, rfl⟩
    · exact ⟨'f', rfl, by decide, rfl⟩
    · exact ⟨'r', rfl, by decide, rfl⟩
  · right
    simp only [List.mem_cons, List.not_mem_nil, or_false, not_or] at hnamed
    obtain ⟨hquote, hslash, hb, ht, hn, hf, hr⟩ := hnamed
    unfold escape
    rw [if_neg hquote, if_neg hslash, if_neg hb, if_neg ht, if_neg hn, if_neg hf, if_neg hr]
    by_cases hc : c.toNat < 0x20
    · left
      exact ⟨hc, if_pos hc⟩
    · right
      exact ⟨hquote, hslash, hc, if_neg hc⟩

/-- An escaped character is read as the character. -/
theorem stringBody_escape (c : Char) (cs : List Char) :
    stringBody none (escape c ++ cs) = (stringBody none cs).map (prepend (some c)) := by
  rcases escape_cases c with ⟨e, he, hu, heq⟩ | ⟨hc, heq⟩ | ⟨hquote, hslash, hc, heq⟩
  · rw [heq]
    exact stringBody_letter he hu
  · have hunit := stringBody_unit hc cs
    rw [Char.ofNat_toNat] at hunit
    rw [heq]
    exact hunit
  · rw [heq]
    exact stringBody_plain hquote hslash hc

/-- Escaped characters up to the closing quotation mark are read back as those characters. -/
theorem stringBody_text (cs rest : List Char) :
    stringBody none (cs.flatMap escape ++ '"' :: rest) = some (some cs, rest) := by
  induction cs with
  | nil => rfl
  | cons c cs ih =>
    rw [List.flatMap_cons, List.append_assoc, stringBody_escape, ih]
    rfl

/-- A string is read up to its closing quote. -/
theorem quoted_quote (s : Option String) (rest : List Char) :
    quoted (quote s ++ rest) = some (s, rest) := by
  cases s with
  | none => rfl
  | some s =>
    unfold quote
    rw [List.cons_append, List.append_assoc, List.singleton_append, quoted, stringBody_text]
    simp

/-! ## Values -/

theorem isSpace_of_isDigit {c : Char} (hc : Decimal.isDigit c = true) : isSpace c = false := by
  unfold isSpace
  simp only [Bool.or_eq_false_iff, decide_eq_false_iff_not]
  refine ⟨⟨⟨?_, ?_⟩, ?_⟩, ?_⟩ <;> (rintro rfl; cases hc)

/-- What a number begins with. -/
theorem exists_cons_render (n : Numeral) :
    ∃ c cs, n.render = c :: cs ∧ (c = '-' ∨ Decimal.isDigit c = true) := by
  rw [render_eq]
  cases n.negative with
  | true => exact ⟨'-', _, rfl, Or.inl rfl⟩
  | false =>
    obtain ⟨c, cs, hc, hdigit⟩ := exists_cons_ofNat n.significand
    rw [hc]
    exact ⟨c, _, rfl, Or.inr hdigit⟩

/-- What a value begins with: no space, and nothing that ends an array. -/
theorem exists_cons_chars (v : Json) :
    ∃ c cs, chars v = c :: cs ∧ isSpace c = false ∧ c ≠ ']' := by
  cases v with
  | null => exact ⟨'n', _, rfl, rfl, by decide⟩
  | bool b =>
    cases b with
    | true => exact ⟨'t', _, rfl, rfl, by decide⟩
    | false => exact ⟨'f', _, rfl, rfl, by decide⟩
  | number n =>
    obtain ⟨c, cs, hc, rfl | hdigit⟩ := exists_cons_render n
    · exact ⟨'-', cs, hc, rfl, by decide⟩
    · refine ⟨c, cs, hc, isSpace_of_isDigit hdigit, ?_⟩
      rintro rfl
      cases hdigit
  | string s =>
    cases s with
    | none => exact ⟨'"', _, rfl, rfl, by decide⟩
    | some s => exact ⟨'"', _, rfl, rfl, by decide⟩
  | array items => exact ⟨'[', _, rfl, rfl, by decide⟩
  | object members => exact ⟨'{', _, rfl, rfl, by decide⟩

theorem skip_cons {c : Char} {cs : List Char} (hc : isSpace c = false) :
    skip (c :: cs) = c :: cs :=
  List.dropWhile_cons_of_neg (Bool.not_eq_true _ ▸ hc)

theorem skip_chars (v : Json) (rest : List Char) : skip (chars v ++ rest) = chars v ++ rest := by
  obtain ⟨c, cs, hc, hspace, -⟩ := exists_cons_chars v
  rw [hc]
  exact skip_cons hspace

theorem skip_quote (s : Option String) (rest : List Char) :
    skip (quote s ++ rest) = quote s ++ rest := skip_chars (.string s) rest

/-- A number is read as one. -/
theorem value_number (fuel : Nat) (n : Numeral) (hrest : NoNumeral rest) :
    value (fuel + 1) (n.render ++ rest) = some (.number n, rest) := by
  have hread := numeral_render n hrest
  have hskip : skip (n.render ++ rest) = n.render ++ rest := skip_chars (.number n) rest
  obtain ⟨c, cs, hc, hfirst⟩ := exists_cons_render n
  rw [hc] at hread hskip ⊢
  rw [value, hskip]
  rw [List.cons_append] at hread ⊢
  -- no other kind of value begins like a number
  split
  case h_7 => rw [hread]; rfl
  all_goals
    next heq =>
      rw [(List.cons.inj heq).1] at hfirst
      exact absurd hfirst (by decide)

theorem exists_cons_quote (s : Option String) : ∃ cs, quote s = '"' :: cs := by
  cases s with
  | none => exact ⟨_, rfl⟩
  | some s => exact ⟨_, rfl⟩

/-- A string is read as one. -/
theorem value_string (fuel : Nat) (s : Option String) (rest : List Char) :
    value (fuel + 1) (quote s ++ rest) = some (.string s, rest) := by
  have hread := quoted_quote s rest
  have hskip := skip_quote s rest
  obtain ⟨cs, hcs⟩ := exists_cons_quote s
  rw [hcs] at hread hskip ⊢
  rw [value, hskip]
  show (quoted ('"' :: (cs ++ rest))).map _ = _
  rw [← List.cons_append]
  rw [hread]
  rfl

theorem itemChars_cons (v w : Json) (ws : List Json) :
    itemChars (v :: w :: ws) = chars v ++ ',' :: itemChars (w :: ws) := rfl

theorem memberChars_cons (k : Option String) (v : Json) (m : Option String × Json)
    (ms : List (Option String × Json)) :
    memberChars ((k, v) :: m :: ms)
      = quote k ++ ':' :: (chars v ++ ',' :: memberChars (m :: ms)) := rfl

/-- What items begin with: no space, and nothing that ends the array. -/
theorem exists_cons_itemChars (v : Json) (vs : List Json) :
    ∃ c cs, itemChars (v :: vs) = c :: cs ∧ isSpace c = false ∧ c ≠ ']' := by
  obtain ⟨c, cs, hc, hspace, hclose⟩ := exists_cons_chars v
  cases vs with
  | nil => exact ⟨c, cs, hc, hspace, hclose⟩
  | cons w ws =>
    rw [itemChars_cons, hc]
    exact ⟨c, _, rfl, hspace, hclose⟩

theorem exists_cons_memberChars (m : Option String × Json) (ms : List (Option String × Json)) :
    ∃ cs, memberChars (m :: ms) = '"' :: cs := by
  obtain ⟨k, v⟩ := m
  obtain ⟨cs, hcs⟩ := exists_cons_quote k
  cases ms with
  | nil => exact ⟨_, by rw [memberChars, hcs]; rfl⟩
  | cons m ms => exact ⟨_, by rw [memberChars_cons, hcs]; rfl⟩

/-- An array that does not end at once has items. -/
theorem value_array {c : Char} {cs : List Char} (fuel : Nat) (hspace : isSpace c = false)
    (hclose : c ≠ ']') :
    value (fuel + 1) ('[' :: c :: cs)
      = (items fuel (c :: cs)).map fun r => (.array r.1, r.2) := by
  have hskip : skip ('[' :: c :: cs) = '[' :: c :: cs := skip_cons rfl
  rw [value, hskip]
  simp only [skip_cons hspace]
  split
  next heq => exact absurd (List.cons.inj heq).1 hclose
  next => rfl

/-- An object that goes on with a quote has members. -/
theorem value_object (fuel : Nat) (cs : List Char) :
    value (fuel + 1) ('{' :: '"' :: cs)
      = (members fuel ('"' :: cs)).map fun r => (.object r.1, r.2) := rfl

theorem noNumeral_comma (rest : List Char) : NoNumeral (',' :: rest) :=
  Numeral.noNumeral_cons (by decide)

theorem noNumeral_bracket (rest : List Char) : NoNumeral (']' :: rest) :=
  Numeral.noNumeral_cons (by decide)

theorem noNumeral_brace (rest : List Char) : NoNumeral ('}' :: rest) :=
  Numeral.noNumeral_cons (by decide)

mutual

/-- A value is read back from its characters. -/
theorem value_chars : ∀ (v : Json) (fuel : Nat) {rest : List Char},
    (chars v).length < fuel → NoNumeral rest → value fuel (chars v ++ rest) = some (v, rest)
  | _, 0, _, hfuel, _ => absurd hfuel (Nat.not_lt_zero _)
  | .null, fuel + 1, _, _, _ => rfl
  | .bool true, fuel + 1, _, _, _ => rfl
  | .bool false, fuel + 1, _, _, _ => rfl
  | .number n, fuel + 1, _, _, hrest => value_number fuel n hrest
  | .string s, fuel + 1, rest, _, _ => value_string fuel s rest
  | .array [], fuel + 1, _, _, _ => rfl
  | .array (v :: vs), fuel + 1, rest, hfuel, _ => by
    have hlen : (itemChars (v :: vs)).length + 1 < fuel := by
      simp only [chars, List.length_cons, List.length_append, List.length_nil] at hfuel
      omega
    have hread := items_itemChars v vs fuel rest hlen
    obtain ⟨c, cs, hc, hspace, hclose⟩ := exists_cons_itemChars v vs
    simp only [chars, List.cons_append, List.append_assoc, List.nil_append]
    rw [hc, List.cons_append] at hread ⊢
    rw [value_array fuel hspace hclose, hread]
    rfl
  | .object [], fuel + 1, _, _, _ => rfl
  | .object (m :: ms), fuel + 1, rest, hfuel, _ => by
    have hlen : (memberChars (m :: ms)).length + 1 < fuel := by
      simp only [chars, List.length_cons, List.length_append, List.length_nil] at hfuel
      omega
    have hread := members_memberChars m ms fuel rest hlen
    obtain ⟨cs, hc⟩ := exists_cons_memberChars m ms
    simp only [chars, List.cons_append, List.append_assoc, List.nil_append]
    rw [hc, List.cons_append] at hread ⊢
    rw [value_object, hread]
    rfl

/-- Items are read back with the bracket that closes them. -/
theorem items_itemChars : ∀ (v : Json) (vs : List Json) (fuel : Nat) (rest : List Char),
    (itemChars (v :: vs)).length + 1 < fuel →
      items fuel (itemChars (v :: vs) ++ ']' :: rest) = some (v :: vs, rest)
  | _, _, 0, _, hfuel => absurd hfuel (Nat.not_lt_zero _)
  | v, [], fuel + 1, rest, hfuel => by
    simp only [itemChars] at hfuel ⊢
    have hv := value_chars v fuel (by omega) (noNumeral_bracket rest)
    rw [items, hv]
    rfl
  | v, w :: ws, fuel + 1, rest, hfuel => by
    simp only [itemChars, List.length_append, List.length_cons] at hfuel
    have hv := value_chars v fuel (by omega) (noNumeral_comma (itemChars (w :: ws) ++ ']' :: rest))
    have hws := items_itemChars w ws fuel rest (by omega)
    rw [itemChars_cons, List.append_assoc, List.cons_append, items, hv]
    show (do let (vs, after) ← items fuel (itemChars (w :: ws) ++ ']' :: rest); _) = _
    rw [hws]
    rfl

/-- Members are read back with the brace that closes them. -/
theorem members_memberChars : ∀ (m : Option String × Json) (ms : List (Option String × Json))
    (fuel : Nat) (rest : List Char),
    (memberChars (m :: ms)).length + 1 < fuel →
      members fuel (memberChars (m :: ms) ++ '}' :: rest) = some (m :: ms, rest)
  | _, _, 0, _, hfuel => absurd hfuel (Nat.not_lt_zero _)
  | (k, v), [], fuel + 1, rest, hfuel => by
    simp only [memberChars, List.length_append, List.length_cons] at hfuel
    have hv := value_chars v fuel (by omega) (noNumeral_brace rest)
    rw [memberChars, List.append_assoc, List.cons_append, members, skip_quote, quoted_quote]
    show (do let (v, rest) ← value fuel (chars v ++ '}' :: rest); _) = _
    rw [hv]
    rfl
  | (k, v), m :: ms, fuel + 1, rest, hfuel => by
    simp only [memberChars, List.length_append, List.length_cons] at hfuel
    have hv := value_chars v fuel (by omega)
      (noNumeral_comma (memberChars (m :: ms) ++ '}' :: rest))
    have hms := members_memberChars m ms fuel rest (by omega)
    rw [memberChars_cons, List.append_assoc, List.cons_append, List.append_assoc,
      List.cons_append, members, skip_quote, quoted_quote]
    show (do let (v, rest) ← value fuel (chars v ++ ',' :: (memberChars (m :: ms) ++ _)); _) = _
    rw [hv]
    show (do let (ms, after) ← members fuel (memberChars (m :: ms) ++ '}' :: rest); _) = _
    rw [hms]
    rfl

end

/-! ## Texts -/

/-- A printed document is read back as itself: `render` loses nothing. -/
theorem parse?_render (v : Json) : parse? v.render = some v := by
  have hread := value_chars v (v.chars.length + 1) (Nat.lt_succ_self _) Numeral.noNumeral_nil
  rw [List.append_nil] at hread
  unfold parse? parseChars? render
  rw [String.toList_ofList, hread]
  rfl

/-- The bytes of a written value are read as the value. -/
theorem parseBytes?_render (v : Json) : parseBytes? (Utf8.bytes v.render) = some v := by
  unfold parseBytes?
  rw [Utf8.text?_bytes]
  exact parse?_render v

/-- A value is determined by its text. -/
theorem render_injective {v w : Json} (h : v.render = w.render) : v = w := by
  have hparse := parse?_render v
  rw [h, parse?_render] at hparse
  exact (Option.some.inj hparse).symm

/-- Values are compared by what is written for them. -/
theorem parse?_of_map_render {t : String} {v : Json}
    (h : (parse? t).map render = some v.render) : parse? t = some v := by
  obtain ⟨w, hw, hsame⟩ := Option.map_eq_some_iff.mp h
  rw [hw, render_injective hsame]

end Json
end RoomHub
