import RoomHub.Proofs.Json.RoundTrip

/-!
# The texts of a value

A value has many texts: there may be spaces between any two tokens, and a character of a string may
stand for itself, or be written with a letter behind a backslash, as the four digits of its code
unit, or as those of a surrogate pair. `Spells v cs` says that `cs` is one of the texts of `v`,
without spaces around it. All of them are read as the value:

> `stringBody_spelled`: whichever way a character is spelled, it is read;
> `value_spells`, `items_spells`, `members_spells`: the same for values;
> `parse?_of_isTextOf`: so all texts of a value are read as the value.

As in the reading of what was written, a reader leaves the rest of the text, and its length is fuel
enough.
-/

namespace RoomHub.Json

open Text
open Numeral (NoNumeral)

/-! ## Spaces -/

/-- Nothing but spaces. -/
def Blank (cs : List Char) : Prop := ∀ c ∈ cs, isSpace c = true

/-- A text with spaces before and behind it. -/
def Padded (P : List Char → Prop) (cs : List Char) : Prop :=
  ∃ before text after, Blank before ∧ P text ∧ Blank after ∧ cs = before ++ (text ++ after)

variable {v : Json} {c : Char} {cs ds text rest : List Char} {n : Numeral}

/-- White space in front of a text is skipped before it. -/
theorem skip_append (h : Blank cs) : skip (cs ++ rest) = skip rest :=
  List.dropWhile_append_of_pos h

theorem skip_skip (cs : List Char) : skip (skip cs) = skip cs := by
  induction cs with
  | nil => rfl
  | cons c cs ih =>
    cases hc : isSpace c with
    | true =>
      have hstep : skip (c :: cs) = skip cs := List.dropWhile_cons_of_pos hc
      rw [hstep, ih]
    | false => rw [skip_cons hc, skip_cons hc]

/-- White space is skipped up to the first character that is none. -/
theorem skip_blank_cons (h : Blank cs) (hc : isSpace c = false) :
    skip (cs ++ c :: rest) = c :: rest := by
  rw [skip_append h]
  exact skip_cons hc

/-- What goes on with spaces does not go on with a number, if what stands behind them does not. -/
theorem noNumeral_blank (h : Blank cs) (hrest : NoNumeral rest) : NoNumeral (cs ++ rest) := by
  cases cs with
  | nil => exact hrest
  | cons c cs =>
    refine Numeral.noNumeral_cons ?_
    have hspace := h c List.mem_cons_self
    unfold isSpace at hspace
    simp only [Bool.or_eq_true, decide_eq_true_eq] at hspace
    rcases hspace with ((rfl | rfl) | rfl) | rfl <;> decide

/-! ## Strings -/

/-- The ways to spell a character of a string. -/
inductive SpellsChar : Char → List Char → Prop
  | plain {c : Char} : c ≠ '"' → c ≠ '\\' → ¬c.toNat < 0x20 → SpellsChar c [c]
  | letter {c e : Char} : unescape? e = some c → SpellsChar c ['\\', e]
  | unit {c d₁ d₂ d₃ d₄ : Char} : Hex.toNat? [d₁, d₂, d₃, d₄] = some c.toNat →
    SpellsChar c ['\\', 'u', d₁, d₂, d₃, d₄]
  | pair {high low : Nat} {d₁ d₂ d₃ d₄ e₁ e₂ e₃ e₄ : Char} :
    Hex.toNat? [d₁, d₂, d₃, d₄] = some high → isHigh high = true →
    Hex.toNat? [e₁, e₂, e₃, e₄] = some low → isLow low = true →
    SpellsChar (ofPair high low) ['\\', 'u', d₁, d₂, d₃, d₄, '\\', 'u', e₁, e₂, e₃, e₄]

/-- The ways to spell the characters of a string, one after the other. -/
inductive SpellsChars : List Char → List Char → Prop
  | nil : SpellsChars [] []
  | cons {c : Char} {cs part text : List Char} :
    SpellsChar c part → SpellsChars cs text → SpellsChars (c :: cs) (part ++ text)

/-- The ways to spell a string, with its quotes. -/
def SpellsText (s : String) (cs : List Char) : Prop :=
  ∃ body, SpellsChars s.toList body ∧ cs = '"' :: (body ++ ['"'])

/-- A code unit that is a character is no half of a surrogate pair. -/
theorem isHigh_toNat (c : Char) : isHigh c.toNat = false ∧ isLow c.toNat = false := by
  unfold isHigh isLow
  have hvalid : c.toNat < 0xD800 ∨ 0xDFFF < c.toNat ∧ c.toNat < 0x110000 := c.valid
  constructor
  · rw [Bool.and_eq_false_iff, decide_eq_false_iff_not, decide_eq_false_iff_not]
    omega
  · rw [Bool.and_eq_false_iff, decide_eq_false_iff_not, decide_eq_false_iff_not]
    omega

/-- A character is read, whichever way it is spelled. -/
theorem stringBody_spelled {part : List Char} (h : SpellsChar c part) (cs : List Char) :
    stringBody none (part ++ cs) = (stringBody none cs).map (prepend (some c)) := by
  cases h with
  | plain hquote hslash hc => exact stringBody_plain hquote hslash hc
  | letter he =>
    refine stringBody_letter he ?_
    rintro rfl
    cases he
  | unit hunit =>
    obtain ⟨hhigh, hlow⟩ := isHigh_toNat c
    simp only [List.cons_append, List.nil_append, stringBody]
    rw [hunit]
    show (if isHigh c.toNat then _ else if isLow c.toNat then _ else _) = _
    rw [hhigh, hlow]
    cases stringBody none cs with
    | none => rfl
    | some r => simp [settle, Char.ofNat_toNat]
  | @pair high low _ _ _ _ _ _ _ _ hunit hhigh hunit' hlow =>
    have hlow' : isHigh low = false := by
      unfold isHigh
      unfold isLow at hlow
      rw [Bool.and_eq_true, decide_eq_true_eq] at hlow
      rw [Bool.and_eq_false_iff, decide_eq_false_iff_not, decide_eq_false_iff_not]
      omega
    simp only [List.cons_append, List.nil_append, stringBody]
    rw [hunit, hunit']
    show (if isHigh high then
      (if isHigh low then _ else if isLow low then _ else _ : Option _).bind _ else _) = _
    rw [hhigh, hlow', hlow]
    cases stringBody none cs <;> rfl

/-- Every spelling of a string, escapes included, is read as that string. -/
theorem stringBody_spells {body : List Char} (h : SpellsChars cs body) (rest : List Char) :
    stringBody none (body ++ '"' :: rest) = some (some cs, rest) := by
  induction h with
  | nil => rfl
  | cons hc _ ih =>
    rw [List.append_assoc, stringBody_spelled hc, ih]
    rfl

/-- A string is read up to its closing quote, whichever way it is spelled. -/
theorem quoted_spells {s : String} (h : SpellsText s text) (rest : List Char) :
    quoted (text ++ rest) = some (some s, rest) := by
  obtain ⟨body, hbody, rfl⟩ := h
  rw [List.cons_append, List.append_assoc, List.singleton_append, quoted, stringBody_spells hbody]
  simp

/-! ## Numbers -/

section Number

variable {r : List Char} {e : Int}

/-- A run of digits is as long as before when a text is added that does not go on with one. -/
theorem takeWhile_isDigit_rest (hrest : Decimal.NoDigit rest) (cs : List Char) :
    (cs ++ rest).takeWhile Decimal.isDigit = cs.takeWhile Decimal.isDigit ∧
      (cs ++ rest).dropWhile Decimal.isDigit = cs.dropWhile Decimal.isDigit ++ rest := by
  induction cs with
  | nil =>
    have hnone : ∀ d ∈ ([] : List Char), Decimal.isDigit d = true := nofun
    exact ⟨Decimal.takeWhile_isDigit_append hnone hrest,
      Decimal.dropWhile_isDigit_append hnone hrest⟩
  | cons c cs ih =>
    cases hc : Decimal.isDigit c with
    | true => simp [hc, ih]
    | false => simp [hc]

/-- Reads digits, one at least, and says what they stand for. -/
def digitRun {α : Type} (f : List Char → α) (cs : List Char) : Option (α × List Char) :=
  if (cs.takeWhile Decimal.isDigit).isEmpty then none
  else some (f (cs.takeWhile Decimal.isDigit), cs.dropWhile Decimal.isDigit)

/-- A run of digits is read alike with more after it that is no digit. -/
theorem digitRun_append {α : Type} {f : List Char → α} {a : α} (hrest : Decimal.NoDigit rest)
    (h : digitRun f cs = some (a, r)) : digitRun f (cs ++ rest) = some (a, r ++ rest) := by
  obtain ⟨htake, hdrop⟩ := takeWhile_isDigit_rest hrest cs
  unfold digitRun at h ⊢
  rw [htake, hdrop]
  split at h
  next => cases h
  next hsome =>
    cases h
    rw [if_neg hsome]

theorem fraction_eq (cs : List Char) : fraction cs = digitRun id cs := rfl

/-- What the digits of an exponent stand for, behind its sign. -/
def signed (negative : Bool) (ds : List Char) : Int :=
  if negative then -Decimal.toNat ds else Decimal.toNat ds

/-- An exponent is a run of digits with an optional sign. -/
theorem exponent_cons (c : Char) (cs : List Char) :
    exponent (c :: cs) = if c = '-' then digitRun (signed true) cs
      else if c = '+' then digitRun (signed false) cs else digitRun (signed false) (c :: cs) := by
  unfold exponent
  split
  next heq =>
    split at heq
    next hc =>
      cases heq
      cases hc
      rfl
    next hc =>
      cases heq
      cases hc
      rfl
    next hminus hplus =>
      cases heq
      have hm : c ≠ '-' := fun hc => hminus cs (by rw [hc])
      have hp : c ≠ '+' := fun hc => hplus cs (by rw [hc])
      simp only [if_neg hm, if_neg hp]
      rfl

/-- An exponent is read alike with more after it that is no digit. -/
theorem exponent_append (hrest : Decimal.NoDigit rest) (h : exponent cs = some (e, r)) :
    exponent (cs ++ rest) = some (e, r ++ rest) := by
  cases cs with
  | nil => cases h
  | cons c cs =>
    rw [exponent_cons] at h
    rw [List.cons_append, exponent_cons]
    split
    next hminus =>
      rw [if_pos hminus] at h
      exact digitRun_append hrest h
    next hminus =>
      rw [if_neg hminus] at h
      split
      next hplus =>
        rw [if_pos hplus] at h
        exact digitRun_append hrest h
      next hplus =>
        rw [if_neg hplus] at h
        exact digitRun_append hrest h

/-- Reads the fraction of a number, if it has one. -/
def places (cs : List Char) : Option (Option (List Char) × List Char) :=
  match cs with
  | '.' :: after => (fraction after).map fun r => (some r.1, r.2)
  | _ => some (none, cs)

/-- Reads the exponent of a number, if it has one. -/
def scaling (cs : List Char) : Option (Option Int × List Char) :=
  match cs with
  | 'e' :: after => (exponent after).map fun r => (some r.1, r.2)
  | 'E' :: after => (exponent after).map fun r => (some r.1, r.2)
  | _ => some (none, cs)

/-- The numeral of a sign, digits, a fraction and an exponent. -/
def assemble (negative : Bool) (whole : List Char) (places : Option (List Char))
    (power : Option Int) : Numeral :=
  let scale : Option Int := match places, power with
    | none, none => none
    | _, _ => some (power.getD 0 - (places.getD []).length)
  ⟨negative, Decimal.toNat (whole ++ places.getD []), scale⟩

/-- Reading what follows the integer part is `places` with the rest of the reader behind it. -/
theorem bind_places {β : Type} (k : Option (List Char) × List Char → Option β) (cs : List Char) :
    (match cs with
      | '.' :: after => ((fraction after).map fun r => (some r.1, r.2)).bind k
      | _ => (some (none, cs)).bind k) = (places cs).bind k := by
  unfold places
  split <;> rfl

/-- Reading what follows the places is `scaling` with the rest of the reader behind it. -/
theorem bind_scaling {β : Type} (k : Option Int × List Char → Option β) (cs : List Char) :
    (match cs with
      | 'e' :: after => ((exponent after).map fun r => (some r.1, r.2)).bind k
      | 'E' :: after => ((exponent after).map fun r => (some r.1, r.2)).bind k
      | _ => (some (none, cs)).bind k) = (scaling cs).bind k := by
  unfold scaling
  split <;> rfl

/-- A number is read digits, fraction and exponent one after the other. -/
theorem magnitude_eq (negative : Bool) (cs : List Char) :
    magnitude negative cs =
      if (cs.takeWhile Decimal.isDigit).isEmpty = true ∨
        ((cs.takeWhile Decimal.isDigit).head? = some '0' ∧
          (cs.takeWhile Decimal.isDigit).length > 1) then none
      else (places (cs.dropWhile Decimal.isDigit)).bind fun r =>
        (scaling r.2).bind fun r' =>
          some (assemble negative (cs.takeWhile Decimal.isDigit) r.1 r'.1, r'.2) := by
  unfold magnitude
  simp only
  split
  next => rfl
  next =>
    refine Eq.trans ?_ (bind_places _ _)
    simp only [← bind_scaling]
    rfl

theorem places_of_ne {cs : List Char} (h : ∀ c ∈ cs.head?, c ≠ '.') :
    places cs = some (none, cs) := by
  unfold places
  split
  next => exact absurd rfl (h '.' rfl)
  next => rfl

theorem scaling_of_ne {cs : List Char} (h : ∀ c ∈ cs.head?, c ≠ 'e' ∧ c ≠ 'E') :
    scaling cs = some (none, cs) := by
  unfold scaling
  split
  next => exact absurd rfl (h 'e' rfl).1
  next => exact absurd rfl (h 'E' rfl).2
  next => rfl

/-- The places are read alike with more after them that neither is a digit nor starts with a
point. -/
theorem places_append {ps : Option (List Char)} (hrest : Decimal.NoDigit rest)
    (hpoint : ∀ c ∈ rest.head?, c ≠ '.') (h : places cs = some (ps, r)) :
    places (cs ++ rest) = some (ps, r ++ rest) := by
  cases cs with
  | nil =>
    cases h
    exact places_of_ne hpoint
  | cons c cs =>
    by_cases hc : c = '.'
    · subst hc
      obtain ⟨ds, hds, hr⟩ := Option.map_eq_some_iff.mp h
      cases hr
      rw [fraction_eq] at hds
      show (fraction (cs ++ rest)).map _ = _
      rw [fraction_eq, digitRun_append hrest hds]
      rfl
    · have hne {cs : List Char} : ∀ d ∈ (c :: cs).head?, d ≠ '.' := by
        intro d hd
        cases hd
        exact hc
      rw [places_of_ne hne] at h
      cases h
      exact places_of_ne hne

/-- The power of ten is read alike with more after it that belongs to no number. -/
theorem scaling_append {power : Option Int} (hrest : NoNumeral rest)
    (h : scaling cs = some (power, r)) : scaling (cs ++ rest) = some (power, r ++ rest) := by
  cases cs with
  | nil =>
    cases h
    exact scaling_of_ne fun c hc => (hrest c hc).2.2
  | cons c cs =>
    by_cases hc : c = 'e' ∨ c = 'E'
    · have hscaling (cs : List Char) :
          scaling (c :: cs) = (exponent cs).map fun r => (some r.1, r.2) := by
        rcases hc with rfl | rfl
        · rfl
        · rfl
      rw [hscaling] at h
      rw [List.cons_append, hscaling]
      obtain ⟨e, he, hr⟩ := Option.map_eq_some_iff.mp h
      cases hr
      rw [exponent_append hrest.noDigit he]
      rfl
    · have hne {cs : List Char} : ∀ d ∈ (c :: cs).head?, d ≠ 'e' ∧ d ≠ 'E' := by
        intro d hd
        cases hd
        exact not_or.mp hc
      rw [scaling_of_ne hne] at h
      cases h
      exact scaling_of_ne hne

/-- A number is read up to where the text does not go on with one. -/
theorem magnitude_append {negative : Bool} (hrest : NoNumeral rest)
    (h : magnitude negative cs = some (n, r)) :
    magnitude negative (cs ++ rest) = some (n, r ++ rest) := by
  obtain ⟨htake, hdrop⟩ := takeWhile_isDigit_rest hrest.noDigit cs
  rw [magnitude_eq] at h ⊢
  rw [htake, hdrop]
  split at h
  next => cases h
  next hwhole =>
    obtain ⟨⟨ps, mid⟩, hplaces, h⟩ := Option.bind_eq_some_iff.mp h
    obtain ⟨⟨power, last⟩, hscaling, h⟩ := Option.bind_eq_some_iff.mp h
    cases h
    have hmore := places_append hrest.noDigit (fun c hc => (hrest c hc).2.1) hplaces
    rw [if_neg hwhole, hmore, Option.bind_some, scaling_append hrest hscaling]
    rfl

/-- A number begins with a digit. -/
theorem exists_cons_of_magnitude {negative : Bool} (h : magnitude negative cs = some (n, r)) :
    ∃ c ds, cs = c :: ds ∧ Decimal.isDigit c = true := by
  rw [magnitude_eq] at h
  cases cs with
  | nil => cases h
  | cons c ds =>
    refine ⟨c, ds, rfl, ?_⟩
    cases hc : Decimal.isDigit c with
    | true => rfl
    | false =>
      rw [List.takeWhile_cons_of_neg (Bool.not_eq_true _ ▸ hc)] at h
      cases h

/-- What a number begins with: a digit, or a sign. -/
theorem exists_cons_of_numeral (h : numeral cs = some (n, r)) :
    ∃ c ds, cs = c :: ds ∧ (c = '-' ∨ Decimal.isDigit c = true) := by
  unfold numeral at h
  split at h
  next ds => exact ⟨'-', ds, rfl, Or.inl rfl⟩
  next =>
    obtain ⟨c, ds, hcs, hc⟩ := exists_cons_of_magnitude h
    exact ⟨c, ds, hcs, Or.inr hc⟩

/-- A number is read alike with more after it that belongs to no number. -/
theorem numeral_append (hrest : NoNumeral rest) (h : numeral cs = some (n, r)) :
    numeral (cs ++ rest) = some (n, r ++ rest) := by
  unfold numeral at h
  split at h
  next ds => exact magnitude_append hrest h
  next =>
    obtain ⟨c, ds, rfl, hc⟩ := exists_cons_of_magnitude h
    rw [List.cons_append, numeral_of_isDigit hc]
    exact magnitude_append hrest h

end Number

/-! ## Values -/

mutual

/-- The texts of a value, without spaces around them. -/
def Spells : Json → List Char → Prop
  | null, cs => cs = "null".toList
  | bool true, cs => cs = "true".toList
  | bool false, cs => cs = "false".toList
  | number n, cs => numeral cs = some (n, [])
  | string s, cs => ∃ t, s = some t ∧ SpellsText t cs
  | array items, cs => ∃ body, SpellsItems items body ∧ cs = '[' :: (body ++ [']'])
  | object members, cs => ∃ body, SpellsMembers members body ∧ cs = '{' :: (body ++ ['}'])

/-- The texts of the items of an array. -/
def SpellsItems : List Json → List Char → Prop
  | [], cs => Blank cs
  | [v], cs => Padded (fun text => Spells v text) cs
  | v :: vs, cs => ∃ first others, Padded (fun text => Spells v text) first ∧
      SpellsItems vs others ∧ cs = first ++ ',' :: others

/-- The texts of the members of an object. -/
def SpellsMembers : List (Option String × Json) → List Char → Prop
  | [], cs => Blank cs
  | [(k, v)], cs => ∃ name value, Padded (fun text => ∃ s, k = some s ∧ SpellsText s text) name ∧
      Padded (fun text => Spells v text) value ∧ cs = name ++ ':' :: value
  | (k, v) :: ms, cs => ∃ name value others,
      Padded (fun text => ∃ s, k = some s ∧ SpellsText s text) name ∧
      Padded (fun text => Spells v text) value ∧ SpellsMembers ms others ∧
      cs = name ++ ':' :: (value ++ ',' :: others)

end

/-- A text of a key, with spaces around it. -/
def SpellsKey (k : Option String) (cs : List Char) : Prop :=
  Padded (fun text => ∃ s, k = some s ∧ SpellsText s text) cs

variable {k : Option String} {vs : List Json} {fuel : Nat} {first body : List Char}

/-- What a text of a value begins with: no space, and nothing that ends an array. -/
theorem exists_cons_of_spells (h : Spells v cs) :
    ∃ c ds, cs = c :: ds ∧ isSpace c = false ∧ c ≠ ']' := by
  cases v with
  | null => exact ⟨'n', _, h, rfl, by decide⟩
  | bool b =>
    cases b with
    | true => exact ⟨'t', _, h, rfl, by decide⟩
    | false => exact ⟨'f', _, h, rfl, by decide⟩
  | number n =>
    obtain ⟨c, ds, hcs, rfl | hdigit⟩ := exists_cons_of_numeral h
    · exact ⟨'-', ds, hcs, rfl, by decide⟩
    · refine ⟨c, ds, hcs, isSpace_of_isDigit hdigit, ?_⟩
      rintro rfl
      cases hdigit
  | string s =>
    obtain ⟨t, -, body, -, hcs⟩ := h
    exact ⟨'"', _, hcs, rfl, by decide⟩
  | array items =>
    obtain ⟨body, -, hcs⟩ := h
    exact ⟨'[', _, hcs, rfl, by decide⟩
  | object members =>
    obtain ⟨body, -, hcs⟩ := h
    exact ⟨'{', _, hcs, rfl, by decide⟩

/-- Spaces before a value change nothing. -/
theorem value_skip (fuel : Nat) (cs : List Char) : value fuel (skip cs) = value fuel cs := by
  cases fuel with
  | zero => rfl
  | succ fuel => rw [value, value, skip_skip]

theorem items_skip (fuel : Nat) (cs : List Char) : items fuel (skip cs) = items fuel cs := by
  cases fuel with
  | zero => rfl
  | succ fuel => rw [items, items, value_skip]

theorem members_skip (fuel : Nat) (cs : List Char) : members fuel (skip cs) = members fuel cs := by
  cases fuel with
  | zero => rfl
  | succ fuel => rw [members, members, skip_skip]

/-- A number is read as one, up to where the text does not go on with it. -/
theorem value_of_numeral (fuel : Nat) (h : numeral cs = some (n, [])) (hrest : NoNumeral rest) :
    value (fuel + 1) (cs ++ rest) = some (.number n, rest) := by
  have hread := numeral_append hrest h
  obtain ⟨c, ds, rfl, hfirst⟩ := exists_cons_of_numeral h
  have hspace : isSpace c = false := by
    rcases hfirst with rfl | hdigit
    · rfl
    · exact isSpace_of_isDigit hdigit
  rw [List.cons_append] at hread ⊢
  rw [value, skip_cons hspace]
  -- no other kind of value begins like a number
  split
  case h_7 => rw [hread]; rfl
  all_goals
    next heq =>
      rw [(List.cons.inj heq).1] at hfirst
      exact absurd hfirst (by decide)

/-- A string is read as one. -/
theorem value_spelled {s : String} (fuel : Nat) (h : SpellsText s cs) (rest : List Char) :
    value (fuel + 1) (cs ++ rest) = some (.string (some s), rest) := by
  have hread := quoted_spells h rest
  obtain ⟨body, -, rfl⟩ := h
  rw [List.cons_append] at hread ⊢
  rw [value, skip_cons rfl]
  show (quoted ('"' :: (body ++ ['"'] ++ rest))).map _ = _
  rw [hread]
  rfl

/-- An array that does not end at once has items, whatever spaces stand before the first. -/
theorem value_bracket {ds : List Char} (hskip : skip cs = c :: ds) (hclose : c ≠ ']') :
    value (fuel + 1) ('[' :: cs) = (items fuel cs).map fun r => (.array r.1, r.2) := by
  rw [value, skip_cons rfl]
  simp only [hskip]
  split
  next heq => exact absurd (List.cons.inj heq).1 hclose
  next =>
    rw [← hskip, items_skip]

/-- An object that goes on with a quote has members, whatever spaces stand before the first. -/
theorem value_brace {ds : List Char} (hskip : skip cs = '"' :: ds) :
    value (fuel + 1) ('{' :: cs) = (members fuel cs).map fun r => (.object r.1, r.2) := by
  rw [value, skip_cons rfl]
  simp only [hskip]
  show (members fuel ('"' :: ds)).map _ = _
  rw [← hskip, members_skip]

/-- A value is read with spaces around it, if it is read without. -/
theorem value_padded (hread : ∀ text rest, Spells v text → text.length ≤ cs.length →
      NoNumeral rest → value fuel (text ++ rest) = some (v, rest))
    (h : Padded (fun text => Spells v text) cs) (hrest : NoNumeral rest) :
    ∃ after, Blank after ∧ value fuel (cs ++ rest) = some (v, after ++ rest) := by
  obtain ⟨before, text, after, hbefore, htext, hafter, rfl⟩ := h
  refine ⟨after, hafter, ?_⟩
  rw [← value_skip, List.append_assoc, skip_append hbefore, value_skip, List.append_assoc]
  refine hread text _ htext ?_ (noNumeral_blank hafter hrest)
  simp only [List.length_append]
  omega

/-- A key is read with spaces around it. -/
theorem quoted_padded (h : SpellsKey k cs) (rest : List Char) :
    ∃ after, Blank after ∧ quoted (skip (cs ++ rest)) = some (k, after ++ rest) := by
  obtain ⟨before, text, after, hbefore, ⟨s, rfl, htext⟩, hafter, rfl⟩ := h
  refine ⟨after, hafter, ?_⟩
  have hread := quoted_spells htext (after ++ rest)
  obtain ⟨body, -, rfl⟩ := htext
  rw [List.append_assoc, skip_append hbefore, List.append_assoc]
  rw [List.cons_append] at hread ⊢
  rw [skip_cons rfl, hread]

/-- A padded value never starts with the bracket that closes an array. -/
theorem exists_cons_skip_padded (h : Padded (fun text => Spells v text) cs) (rest : List Char) :
    ∃ c ds, skip (cs ++ rest) = c :: ds ∧ c ≠ ']' := by
  obtain ⟨before, text, after, hbefore, htext, -, rfl⟩ := h
  obtain ⟨c, ds, rfl, hspace, hclose⟩ := exists_cons_of_spells htext
  refine ⟨c, ds ++ after ++ rest, ?_, hclose⟩
  rw [List.append_assoc, skip_append hbefore]
  exact skip_cons hspace

/-- What the texts of items begin with, after spaces: nothing that ends the array. -/
theorem exists_cons_skip_items (h : SpellsItems (v :: vs) body) (rest : List Char) :
    ∃ c ds, skip (body ++ rest) = c :: ds ∧ c ≠ ']' := by
  cases vs with
  | nil => exact exists_cons_skip_padded h rest
  | cons w ws =>
    obtain ⟨first, others, hfirst, -, rfl⟩ := h
    rw [List.append_assoc]
    exact exists_cons_skip_padded hfirst _

/-- A key starts with its quotation mark, once white space is skipped. -/
theorem exists_cons_skip_key (h : SpellsKey k cs) (rest : List Char) :
    ∃ ds, skip (cs ++ rest) = '"' :: ds := by
  obtain ⟨before, text, after, hbefore, ⟨s, -, body, -, rfl⟩, -, rfl⟩ := h
  rw [List.append_assoc, skip_append hbefore]
  exact ⟨_, skip_cons rfl⟩

/-- What the texts of members begin with, after spaces: a quote. -/
theorem exists_cons_skip_members {ms : List (Option String × Json)}
    (h : SpellsMembers ((k, v) :: ms) body) (rest : List Char) :
    ∃ ds, skip (body ++ rest) = '"' :: ds := by
  cases ms with
  | nil =>
    obtain ⟨name, value, hname, -, rfl⟩ := h
    rw [List.append_assoc]
    exact exists_cons_skip_key hname _
  | cons m ms =>
    obtain ⟨name, value, others, hname, -, -, rfl⟩ := h
    rw [List.append_assoc]
    exact exists_cons_skip_key hname _

mutual

/-- A value is read from any of its texts. -/
theorem value_spells : ∀ (v : Json) (fuel : Nat) {cs rest : List Char}, Spells v cs →
    cs.length < fuel → NoNumeral rest → value fuel (cs ++ rest) = some (v, rest)
  | _, 0, _, _, _, hfuel, _ => absurd hfuel (Nat.not_lt_zero _)
  | .null, fuel + 1, _, _, h, _, _ => by
    cases h
    rfl
  | .bool true, fuel + 1, _, _, h, _, _ => by
    cases h
    rfl
  | .bool false, fuel + 1, _, _, h, _, _ => by
    cases h
    rfl
  | .number n, fuel + 1, _, _, h, _, hrest => value_of_numeral fuel h hrest
  | .string s, fuel + 1, _, rest, h, _, _ => by
    obtain ⟨t, rfl, ht⟩ := h
    exact value_spelled fuel ht rest
  | .array [], fuel + 1, _, rest, h, _, _ => by
    obtain ⟨body, hbody, rfl⟩ := h
    have hblank : Blank body := hbody
    simp only [List.cons_append, List.append_assoc, List.nil_append]
    rw [value, skip_cons rfl]
    simp only [skip_blank_cons hblank (rfl : isSpace ']' = false)]
  | .array (v :: vs), fuel + 1, _, rest, h, hfuel, _ => by
    obtain ⟨body, hbody, rfl⟩ := h
    simp only [List.length_cons, List.length_append, List.length_nil] at hfuel
    obtain ⟨c, ds, hskip, hclose⟩ := exists_cons_skip_items hbody (']' :: rest)
    simp only [List.cons_append, List.append_assoc, List.nil_append]
    rw [value_bracket hskip hclose, items_spells v vs fuel rest hbody (by omega)]
    rfl
  | .object [], fuel + 1, _, rest, h, _, _ => by
    obtain ⟨body, hbody, rfl⟩ := h
    have hblank : Blank body := hbody
    simp only [List.cons_append, List.append_assoc, List.nil_append]
    rw [value, skip_cons rfl]
    simp only [skip_blank_cons hblank (rfl : isSpace '}' = false)]
  | .object ((k, v) :: ms), fuel + 1, _, rest, h, hfuel, _ => by
    obtain ⟨body, hbody, rfl⟩ := h
    simp only [List.length_cons, List.length_append, List.length_nil] at hfuel
    obtain ⟨ds, hskip⟩ := exists_cons_skip_members hbody ('}' :: rest)
    simp only [List.cons_append, List.append_assoc, List.nil_append]
    rw [value_brace hskip, members_spells k v ms fuel rest hbody (by omega)]
    rfl

/-- Items are read from any of their texts, with the bracket that closes them. -/
theorem items_spells : ∀ (v : Json) (vs : List Json) (fuel : Nat) {body : List Char}
    (rest : List Char), SpellsItems (v :: vs) body → body.length + 1 < fuel →
      items fuel (body ++ ']' :: rest) = some (v :: vs, rest)
  | _, _, 0, _, _, _, hfuel => absurd hfuel (Nat.not_lt_zero _)
  | v, [], fuel + 1, body, rest, h, hfuel => by
    obtain ⟨after, hafter, hv⟩ := value_padded
      (fun _ _ htext hlen => value_spells v fuel htext (by omega)) h (noNumeral_bracket rest)
    rw [items, hv]
    simp only [Option.bind_eq_bind, Option.bind_some,
      skip_blank_cons hafter (rfl : isSpace ']' = false)]
    rfl
  | v, w :: ws, fuel + 1, _, rest, h, hfuel => by
    obtain ⟨first, others, hfirst, hothers, rfl⟩ := h
    simp only [List.length_append, List.length_cons] at hfuel
    obtain ⟨after, hafter, hv⟩ := value_padded
      (fun _ _ htext hlen => value_spells v fuel htext (by omega)) hfirst
      (noNumeral_comma (others ++ ']' :: rest))
    have hws := items_spells w ws fuel rest hothers (by omega)
    rw [List.append_assoc, List.cons_append, items, hv]
    simp only [Option.bind_eq_bind, Option.bind_some,
      skip_blank_cons hafter (rfl : isSpace ',' = false), hws]
    rfl

/-- Members are read from any of their texts, with the brace that closes them. -/
theorem members_spells : ∀ (k : Option String) (v : Json) (ms : List (Option String × Json))
    (fuel : Nat) {body : List Char} (rest : List Char), SpellsMembers ((k, v) :: ms) body →
      body.length + 1 < fuel → members fuel (body ++ '}' :: rest) = some ((k, v) :: ms, rest)
  | _, _, _, 0, _, _, _, hfuel => absurd hfuel (Nat.not_lt_zero _)
  | k, v, [], fuel + 1, _, rest, h, hfuel => by
    obtain ⟨name, text, hname, htext, rfl⟩ := h
    simp only [List.length_append, List.length_cons] at hfuel
    obtain ⟨gap, hgap, hk⟩ := quoted_padded hname (':' :: (text ++ '}' :: rest))
    obtain ⟨after, hafter, hv⟩ := value_padded
      (fun _ _ htext hlen => value_spells v fuel htext (by omega)) htext (noNumeral_brace rest)
    rw [List.append_assoc, List.cons_append, members, hk]
    simp only [Option.bind_eq_bind, Option.bind_some,
      skip_blank_cons hgap (rfl : isSpace ':' = false), hv,
      skip_blank_cons hafter (rfl : isSpace '}' = false)]
    rfl
  | k, v, m :: ms, fuel + 1, _, rest, h, hfuel => by
    obtain ⟨name, text, others, hname, htext, hothers, rfl⟩ := h
    simp only [List.length_append, List.length_cons] at hfuel
    obtain ⟨gap, hgap, hk⟩ := quoted_padded hname (':' :: (text ++ ',' :: (others ++ '}' :: rest)))
    obtain ⟨after, hafter, hv⟩ := value_padded
      (fun _ _ htext hlen => value_spells v fuel htext (by omega)) htext
      (noNumeral_comma (others ++ '}' :: rest))
    have hms := members_spells m.1 m.2 ms fuel rest hothers (by omega)
    rw [List.append_assoc, List.cons_append, List.append_assoc, List.cons_append, members, hk]
    simp only [Option.bind_eq_bind, Option.bind_some,
      skip_blank_cons hgap (rfl : isSpace ':' = false), hv,
      skip_blank_cons hafter (rfl : isSpace ',' = false), hms]
    rfl

end

/-! ## Texts -/

/-- The texts of a value, with spaces around them. -/
def IsTextOf (v : Json) (t : String) : Prop := Padded (fun text => Spells v text) t.toList

/-- All texts of a value are read as the value. -/
theorem parse?_of_isTextOf {t : String} (h : IsTextOf v t) : parse? t = some v := by
  have hread : ∀ text rest, Spells v text → text.length ≤ t.toList.length → NoNumeral rest →
      value (t.toList.length + 1) (text ++ rest) = some (v, rest) :=
    fun _ _ htext hlen => value_spells v _ htext (by omega)
  obtain ⟨after, hafter, hv⟩ := value_padded hread h Numeral.noNumeral_nil
  rw [List.append_nil, List.append_nil] at hv
  have hend : skip (after ++ []) = [] := skip_append hafter
  rw [List.append_nil] at hend
  unfold parse? parseChars?
  rw [hv]
  simp only [Option.bind_eq_bind, Option.bind_some, hend]
  rfl

end RoomHub.Json
