import Mathlib.Data.List.TakeWhile
import RoomHub.Proofs.Json.Spelling

/-!
# What is read is a text of what was read

The other direction: a reader that gives a value, all strings of which are texts, has read one of
the spellings of that value. Together with `parse?_of_isTextOf` this says that a text is read as a
value exactly if it is one of its texts.

> `stringBody_reads`, `numeral_reads`: what was read of a string, and of a number;
> `value_reads`, `items_reads`, `members_reads`: the same for values;
> `isTextOf_iff_parse?`: both directions.
-/

namespace RoomHub.Json

open Text

variable {v : Json} {c : Char} {cs text rest : List Char} {n : Numeral}

/-- A text is spaces and what stands behind them. -/
theorem exists_blank_skip (cs : List Char) : ∃ before, Blank before ∧ cs = before ++ skip cs :=
  ⟨cs.takeWhile isSpace, fun _ hc => List.mem_takeWhile_imp hc,
    List.takeWhile_append_dropWhile.symm⟩

/-! ## Strings -/

/-- Four digits stand for a code unit. -/
theorem unit_lt {d₁ d₂ d₃ d₄ : Char} {unit : Nat} (h : Hex.toNat? [d₁, d₂, d₃, d₄] = some unit) :
    unit < 0x10000 := by
  simpa using Hex.toNat?_lt h

/-- A code unit that is no half of a surrogate pair is a character. -/
theorem toNat_ofNat_unit {unit : Nat} (hlt : unit < 0x10000) (hhigh : ¬isHigh unit = true)
    (hlow : ¬isLow unit = true) : (Char.ofNat unit).toNat = unit := by
  unfold isHigh at hhigh
  unfold isLow at hlow
  simp only [Bool.and_eq_true, decide_eq_true_eq, not_and, Nat.not_lt] at hhigh hlow
  have hvalid : unit.isValidChar := by
    unfold Nat.isValidChar
    omega
  unfold Char.ofNat
  rw [dif_pos hvalid]
  rfl

/-- Behind the first half of a surrogate pair stands the second. -/
theorem stringBody_high {high : Nat} {chars : List Char}
    (h : stringBody (some high) cs = some (some chars, rest)) :
    ∃ d₁ d₂ d₃ d₄ low after others, cs = '\\' :: 'u' :: d₁ :: d₂ :: d₃ :: d₄ :: after ∧
      Hex.toNat? [d₁, d₂, d₃, d₄] = some low ∧ isLow low = true ∧
      chars = ofPair high low :: others ∧ stringBody none after = some (some others, rest) := by
  unfold stringBody at h
  split at h
  next => cases h
  next => cases h
  next d₁ d₂ d₃ d₄ after =>
    obtain ⟨low, hunit, h⟩ := Option.bind_eq_some_iff.mp h
    -- whatever else stands there leaves the first half alone, and spoils the string
    split at h
    next =>
      obtain ⟨_, -, h⟩ := Option.bind_eq_some_iff.mp h
      cases h
    next =>
      split at h
      next hlow =>
        obtain ⟨⟨read, after'⟩, hread, h⟩ := Option.bind_eq_some_iff.mp h
        simp only [prepend, Option.map_some, Option.pure_def, Option.some.injEq,
          Prod.mk.injEq] at h
        obtain ⟨hchars, rfl⟩ := h
        obtain ⟨others, rfl, rfl⟩ := Option.map_eq_some_iff.mp hchars
        exact ⟨d₁, d₂, d₃, d₄, low, after, others, rfl, hunit, hlow, rfl, hread⟩
      next =>
        obtain ⟨_, -, h⟩ := Option.bind_eq_some_iff.mp h
        cases h
  next =>
    obtain ⟨_, -, h⟩ := Option.bind_eq_some_iff.mp h
    obtain ⟨_, -, h⟩ := Option.bind_eq_some_iff.mp h
    cases h
  next =>
    split at h
    next => cases h
    next =>
      obtain ⟨_, -, h⟩ := Option.bind_eq_some_iff.mp h
      cases h

/-- A string read with `c` in front is the string after `c` with `c` put before it. -/
theorem of_prepend {r : Option (List Char) × List Char} {chars : List Char}
    (h : settle none (prepend (some c) r) = (some chars, rest)) :
    ∃ others, chars = c :: others ∧ r = (some others, rest) := by
  obtain ⟨read, after⟩ := r
  simp only [settle, prepend, Option.isSome_none, Bool.false_eq_true, if_false,
    Prod.mk.injEq] at h
  obtain ⟨hchars, rfl⟩ := h
  obtain ⟨others, rfl, rfl⟩ := Option.map_eq_some_iff.mp hchars
  exact ⟨others, rfl, rfl⟩

/-- What is read as a string spells it. -/
theorem stringBody_reads : ∀ (cs : List Char) {chars rest : List Char},
    stringBody none cs = some (some chars, rest) →
      ∃ body, SpellsChars chars body ∧ cs = body ++ '"' :: rest := by
  intro cs chars rest h
  unfold stringBody at h
  split at h
  next => cases h
  next =>
    cases h
    exact ⟨[], .nil, rfl⟩
  next d₁ d₂ d₃ d₄ after =>
    obtain ⟨unit, hunit, h⟩ := Option.bind_eq_some_iff.mp h
    split at h
    next hhigh =>
      obtain ⟨r, hr, h⟩ := Option.bind_eq_some_iff.mp h
      cases h
      obtain ⟨e₁, e₂, e₃, e₄, low, after', others, rfl, hunit', hlow, rfl, hread⟩ :=
        stringBody_high hr
      obtain ⟨body, hbody, rfl⟩ := stringBody_reads after' hread
      exact ⟨_, .cons (.pair hunit hhigh hunit' hlow) hbody, rfl⟩
    next hhigh =>
      split at h
      next =>
        obtain ⟨r, hr, h⟩ := Option.bind_eq_some_iff.mp h
        cases h
      next hlow =>
        obtain ⟨r, hr, h⟩ := Option.bind_eq_some_iff.mp h
        obtain ⟨others, rfl, rfl⟩ := of_prepend (Option.some.inj h)
        obtain ⟨body, hbody, rfl⟩ := stringBody_reads after hr
        have hchar := toNat_ofNat_unit (unit_lt hunit) hhigh hlow
        exact ⟨_, .cons (.unit (hchar.symm ▸ hunit)) hbody, rfl⟩
  next e after _ =>
    obtain ⟨c, he, h⟩ := Option.bind_eq_some_iff.mp h
    obtain ⟨r, hr, h⟩ := Option.bind_eq_some_iff.mp h
    obtain ⟨others, rfl, rfl⟩ := of_prepend (Option.some.inj h)
    obtain ⟨body, hbody, rfl⟩ := stringBody_reads after hr
    exact ⟨_, .cons (.letter he) hbody, rfl⟩
  next c after hquote _ hslash =>
    split at h
    next => cases h
    next hc =>
      obtain ⟨r, hr, h⟩ := Option.bind_eq_some_iff.mp h
      obtain ⟨others, rfl, rfl⟩ := of_prepend (Option.some.inj h)
      obtain ⟨body, hbody, rfl⟩ := stringBody_reads after hr
      have hslash' : c ≠ '\\' := by
        intro hc'
        cases body with
        | nil => exact hslash '"' rest hc' rfl
        | cons e body => exact hslash e _ hc' rfl
      exact ⟨_, .cons (.plain hquote hslash' hc) hbody, rfl⟩
termination_by cs => cs.length

/-- What a quoted string was read from spells it, the text after it apart. -/
theorem quoted_reads {s : String} (h : quoted cs = some (some s, rest)) :
    ∃ text, SpellsText s text ∧ cs = text ++ rest := by
  unfold quoted at h
  split at h
  next after =>
    obtain ⟨⟨read, rest'⟩, hread, h⟩ := Option.map_eq_some_iff.mp h
    obtain ⟨hs, rfl⟩ := Prod.mk.inj h
    obtain ⟨chars, rfl, rfl⟩ := Option.map_eq_some_iff.mp hs
    obtain ⟨body, hbody, rfl⟩ := stringBody_reads after hread
    refine ⟨_, ⟨body, ?_, rfl⟩, by simp⟩
    rw [String.toList_ofList]
    exact hbody
  next => cases h

/-! ## Numbers -/

section Number

variable {r : List Char} {e : Int}

/-- A run of digits is all digits. -/
theorem takeWhile_isDigit_self (cs : List Char) :
    (cs.takeWhile Decimal.isDigit).takeWhile Decimal.isDigit = cs.takeWhile Decimal.isDigit ∧
      (cs.takeWhile Decimal.isDigit).dropWhile Decimal.isDigit = [] := by
  have hall : ∀ d ∈ cs.takeWhile Decimal.isDigit, Decimal.isDigit d = true :=
    fun _ hd => List.mem_takeWhile_imp hd
  exact ⟨List.takeWhile_eq_self_iff.mpr hall, List.dropWhile_eq_nil_iff.mpr hall⟩

/-- A run of digits was read from a text of its own, which starts with a character and is read alike
with nothing after it. -/
theorem digitRun_reads {α : Type} {f : List Char → α} {a : α} (h : digitRun f cs = some (a, r)) :
    ∃ c text, cs = c :: (text ++ r) ∧ digitRun f (c :: text) = some (a, []) := by
  obtain ⟨htake, hdrop⟩ := takeWhile_isDigit_self cs
  have hread : digitRun f (cs.takeWhile Decimal.isDigit) = some (a, []) ∧
      cs = cs.takeWhile Decimal.isDigit ++ r := by
    unfold digitRun at h ⊢
    rw [htake, hdrop]
    split at h
    next => cases h
    next hsome =>
      cases h
      exact ⟨if_neg hsome, List.takeWhile_append_dropWhile.symm⟩
  cases hds : cs.takeWhile Decimal.isDigit with
  | nil =>
    rw [hds] at hread
    cases hread.1
  | cons c text =>
    rw [hds] at hread
    exact ⟨c, text, hread.2, hread.1⟩

/-- An exponent was read from a text of its own. -/
theorem exponent_reads (h : exponent cs = some (e, r)) :
    ∃ text, cs = text ++ r ∧ exponent text = some (e, []) := by
  cases cs with
  | nil => cases h
  | cons c cs =>
    rw [exponent_cons] at h
    split at h
    next hminus =>
      obtain ⟨d, text, rfl, hread⟩ := digitRun_reads h
      refine ⟨c :: d :: text, rfl, ?_⟩
      rw [exponent_cons, if_pos hminus, hread]
    next hminus =>
      split at h
      next hplus =>
        obtain ⟨d, text, rfl, hread⟩ := digitRun_reads h
        refine ⟨c :: d :: text, rfl, ?_⟩
        rw [exponent_cons, if_neg hminus, if_pos hplus, hread]
      next hplus =>
        obtain ⟨d, text, hcs, hread⟩ := digitRun_reads h
        obtain ⟨rfl, rfl⟩ := List.cons.inj hcs
        refine ⟨c :: text, rfl, ?_⟩
        rw [exponent_cons, if_neg hminus, if_neg hplus, hread]

/-- What was read as a fraction is nothing, or begins with a point. -/
theorem places_reads {ps : Option (List Char)} (h : places cs = some (ps, r)) :
    ∃ text, cs = text ++ r ∧ places text = some (ps, []) ∧ ∀ c ∈ text.head?, c = '.' := by
  unfold places at h
  split at h
  next after =>
    obtain ⟨⟨ds, r'⟩, hds, h⟩ := Option.map_eq_some_iff.mp h
    cases h
    obtain ⟨d, text, rfl, hread⟩ := digitRun_reads ((fraction_eq after).symm.trans hds)
    refine ⟨'.' :: d :: text, rfl, ?_, fun c hc => (Option.some.inj hc).symm⟩
    show (fraction (d :: text)).map _ = _
    rw [fraction_eq, hread]
    rfl
  next =>
    cases h
    exact ⟨[], rfl, rfl, nofun⟩

/-- What was read as an exponent is nothing, or begins with its letter. -/
theorem scaling_reads {power : Option Int} (h : scaling cs = some (power, r)) :
    ∃ text, cs = text ++ r ∧ scaling text = some (power, []) ∧
      ∀ c ∈ text.head?, c = 'e' ∨ c = 'E' := by
  unfold scaling at h
  split at h
  next after =>
    obtain ⟨⟨e, r'⟩, he, h⟩ := Option.map_eq_some_iff.mp h
    cases h
    obtain ⟨text, rfl, hread⟩ := exponent_reads he
    refine ⟨'e' :: text, rfl, ?_, fun c hc => Or.inl (Option.some.inj hc).symm⟩
    show (exponent text).map _ = _
    rw [hread]
    rfl
  next after =>
    obtain ⟨⟨e, r'⟩, he, h⟩ := Option.map_eq_some_iff.mp h
    cases h
    obtain ⟨text, rfl, hread⟩ := exponent_reads he
    refine ⟨'E' :: text, rfl, ?_, fun c hc => Or.inr (Option.some.inj hc).symm⟩
    show (exponent text).map _ = _
    rw [hread]
    rfl
  next =>
    cases h
    exact ⟨[], rfl, rfl, nofun⟩

/-- The digits, the point and the exponent of a number were read from a text of its own. -/
theorem magnitude_reads {negative : Bool} (h : magnitude negative cs = some (n, r)) :
    ∃ text, cs = text ++ r ∧ magnitude negative text = some (n, []) := by
  rw [magnitude_eq] at h
  split at h
  next => cases h
  next hwhole =>
    obtain ⟨⟨ps, mid⟩, hplaces, h⟩ := Option.bind_eq_some_iff.mp h
    obtain ⟨⟨power, last⟩, hscaling, h⟩ := Option.bind_eq_some_iff.mp h
    cases h
    obtain ⟨point, hmid, hread, hpoint⟩ := places_reads hplaces
    obtain ⟨letter, hlast, hread', hletter⟩ := scaling_reads hscaling
    have hnoDigit : Decimal.NoDigit letter := by
      intro c hc
      rcases hletter c hc with rfl | rfl <;> rfl
    have htail : Decimal.NoDigit (point ++ letter) := by
      cases point with
      | nil => exact hnoDigit
      | cons c point =>
        cases hpoint c rfl
        exact Decimal.noDigit_cons rfl
    have hds : ∀ d ∈ cs.takeWhile Decimal.isDigit, Decimal.isDigit d = true :=
      fun _ hd => List.mem_takeWhile_imp hd
    refine ⟨cs.takeWhile Decimal.isDigit ++ (point ++ letter), ?_, ?_⟩
    · rw [List.append_assoc, List.append_assoc, ← hlast, ← hmid]
      exact List.takeWhile_append_dropWhile.symm
    · have hmore := places_append hnoDigit (fun c hc => by
        rcases hletter c hc with rfl | rfl <;> decide) hread
      rw [List.nil_append] at hmore
      rw [magnitude_eq, Decimal.takeWhile_isDigit_append hds htail,
        Decimal.dropWhile_isDigit_append hds htail, if_neg hwhole, hmore, Option.bind_some, hread']
      rfl

/-- What is read as a number reads as it up to its end. -/
theorem numeral_reads (h : numeral cs = some (n, r)) :
    ∃ text, cs = text ++ r ∧ numeral text = some (n, []) := by
  unfold numeral at h
  split at h
  next ds =>
    obtain ⟨text, rfl, hread⟩ := magnitude_reads h
    exact ⟨'-' :: text, rfl, hread⟩
  next =>
    obtain ⟨text, rfl, hread⟩ := magnitude_reads h
    obtain ⟨c, ds, rfl, hc⟩ := exists_cons_of_magnitude hread
    exact ⟨c :: ds, rfl, (numeral_of_isDigit hc).trans hread⟩

end Number

/-! ## Values -/

mutual

/-- What is read as a value is one of its texts, with spaces before it. -/
theorem value_reads : ∀ (fuel : Nat) {cs rest : List Char} {v : Json},
    value fuel cs = some (v, rest) → v.sound = true →
      ∃ before text, Blank before ∧ Spells v text ∧ cs = before ++ (text ++ rest)
  | 0, _, _, _, h, _ => nomatch h
  | fuel + 1, cs, rest, v, h, hsound => by
    obtain ⟨before, hbefore, hcs⟩ := exists_blank_skip cs
    rw [value] at h
    split at h
    next heq =>
      cases h
      exact ⟨before, _, hbefore, rfl, hcs.trans (by rw [heq]; rfl)⟩
    next heq =>
      cases h
      exact ⟨before, _, hbefore, rfl, hcs.trans (by rw [heq]; rfl)⟩
    next heq =>
      cases h
      exact ⟨before, _, hbefore, rfl, hcs.trans (by rw [heq]; rfl)⟩
    next after heq =>
      obtain ⟨⟨s, rest'⟩, hs, h⟩ := Option.map_eq_some_iff.mp h
      cases h
      obtain ⟨t, rfl⟩ := Option.isSome_iff_exists.mp hsound
      obtain ⟨text, htext, hafter⟩ := quoted_reads hs
      exact ⟨before, text, hbefore, ⟨t, rfl, htext⟩, hcs.trans (by rw [heq, hafter])⟩
    next after heq =>
      split at h
      next close hclose =>
        cases h
        obtain ⟨gap, hgap, hafter⟩ := exists_blank_skip after
        refine ⟨before, '[' :: (gap ++ [']']), hbefore, ⟨gap, hgap, rfl⟩, hcs.trans ?_⟩
        rw [heq, hafter, hclose]
        simp
      next =>
        obtain ⟨⟨vs, rest'⟩, hvs, h⟩ := Option.map_eq_some_iff.mp h
        cases h
        rw [items_skip] at hvs
        obtain ⟨-, body, hbody, rfl⟩ := items_reads fuel hvs hsound
        refine ⟨before, '[' :: (body ++ [']']), hbefore, ⟨body, hbody, rfl⟩, hcs.trans ?_⟩
        rw [heq]
        simp
    next after heq =>
      split at h
      next close hclose =>
        cases h
        obtain ⟨gap, hgap, hafter⟩ := exists_blank_skip after
        refine ⟨before, '{' :: (gap ++ ['}']), hbefore, ⟨gap, hgap, rfl⟩, hcs.trans ?_⟩
        rw [heq, hafter, hclose]
        simp
      next =>
        obtain ⟨⟨ms, rest'⟩, hms, h⟩ := Option.map_eq_some_iff.mp h
        cases h
        rw [members_skip] at hms
        obtain ⟨-, body, hbody, rfl⟩ := members_reads fuel hms hsound
        refine ⟨before, '{' :: (body ++ ['}']), hbefore, ⟨body, hbody, rfl⟩, hcs.trans ?_⟩
        rw [heq]
        simp
    next =>
      obtain ⟨⟨n, rest'⟩, hn, h⟩ := Option.map_eq_some_iff.mp h
      cases h
      obtain ⟨text, hskip, hread⟩ := numeral_reads hn
      exact ⟨before, text, hbefore, hread, hcs.trans (by rw [hskip])⟩

/-- What is read as items is one of their texts, with the bracket that closes them. -/
theorem items_reads : ∀ (fuel : Nat) {cs rest : List Char} {vs : List Json},
    items fuel cs = some (vs, rest) → itemsSound vs = true →
      vs ≠ [] ∧ ∃ body, SpellsItems vs body ∧ cs = body ++ ']' :: rest
  | 0, _, _, _, h, _ => nomatch h
  | fuel + 1, cs, rest, vs, h, hsound => by
    rw [items] at h
    obtain ⟨⟨v, mid⟩, hv, h⟩ := Option.bind_eq_some_iff.mp h
    obtain ⟨gap, hgap, hmid⟩ := exists_blank_skip mid
    simp only at h
    split at h
    next after heq =>
      obtain ⟨⟨ws, rest'⟩, hws, h⟩ := Option.bind_eq_some_iff.mp h
      cases h
      obtain ⟨hfirst, hothers⟩ := (Bool.and_eq_true _ _).mp hsound
      obtain ⟨before, text, hbefore, htext, rfl⟩ := value_reads fuel hv hfirst
      obtain ⟨hne, body, hbody, rfl⟩ := items_reads fuel hws hothers
      obtain ⟨w, ws, rfl⟩ := List.exists_cons_of_ne_nil hne
      refine ⟨List.cons_ne_nil _ _, before ++ (text ++ gap) ++ ',' :: body,
        ⟨_, body, ⟨before, text, gap, hbefore, htext, hgap, rfl⟩, hbody, rfl⟩, ?_⟩
      rw [hmid, heq]
      simp
    next after heq =>
      cases h
      obtain ⟨hfirst, -⟩ := (Bool.and_eq_true _ _).mp hsound
      obtain ⟨before, text, hbefore, htext, rfl⟩ := value_reads fuel hv hfirst
      refine ⟨List.cons_ne_nil _ _, before ++ (text ++ gap),
        ⟨before, text, gap, hbefore, htext, hgap, rfl⟩, ?_⟩
      rw [hmid, heq]
      simp
    next => cases h

/-- What is read as members is one of their texts, with the brace that closes them. -/
theorem members_reads : ∀ (fuel : Nat) {cs rest : List Char} {ms : List (Option String × Json)},
    members fuel cs = some (ms, rest) → membersSound ms = true →
      ms ≠ [] ∧ ∃ body, SpellsMembers ms body ∧ cs = body ++ '}' :: rest
  | 0, _, _, _, h, _ => nomatch h
  | fuel + 1, cs, rest, ms, h, hsound => by
    rw [members] at h
    obtain ⟨⟨k, mid⟩, hk, h⟩ := Option.bind_eq_some_iff.mp h
    obtain ⟨before, hbefore, hcs⟩ := exists_blank_skip cs
    obtain ⟨gap, hgap, hmid⟩ := exists_blank_skip mid
    simp only at h
    split at h
    next behind heq =>
      obtain ⟨⟨v, last⟩, hv, h⟩ := Option.bind_eq_some_iff.mp h
      obtain ⟨gap', hgap', hlast⟩ := exists_blank_skip last
      simp only at h
      have hread (hkey : k.isSome = true) :
          ∃ name, SpellsKey k name ∧ cs = name ++ ':' :: behind := by
        obtain ⟨s, rfl⟩ := Option.isSome_iff_exists.mp hkey
        obtain ⟨text, htext, hskip⟩ := quoted_reads hk
        refine ⟨before ++ (text ++ gap),
          ⟨before, text, gap, hbefore, ⟨s, rfl, htext⟩, hgap, rfl⟩, ?_⟩
        rw [hcs, hskip, hmid, heq]
        simp
      split at h
      next after heq' =>
        obtain ⟨⟨others, rest'⟩, hothers, h⟩ := Option.bind_eq_some_iff.mp h
        cases h
        simp only [membersSound, Bool.and_eq_true] at hsound
        obtain ⟨⟨hkey, hvalue⟩, hmore⟩ := hsound
        obtain ⟨name, hname, rfl⟩ := hread hkey
        obtain ⟨before', text, hbefore', htext, rfl⟩ := value_reads fuel hv hvalue
        obtain ⟨hne, body, hbody, rfl⟩ := members_reads fuel hothers hmore
        obtain ⟨m, ms, rfl⟩ := List.exists_cons_of_ne_nil hne
        refine ⟨List.cons_ne_nil _ _, name ++ ':' :: (before' ++ (text ++ gap') ++ ',' :: body),
          ⟨name, _, body, hname, ⟨before', text, gap', hbefore', htext, hgap', rfl⟩, hbody,
            rfl⟩, ?_⟩
        rw [hlast, heq']
        simp
      next after heq' =>
        cases h
        simp only [membersSound, Bool.and_eq_true] at hsound
        obtain ⟨⟨hkey, hvalue⟩, -⟩ := hsound
        obtain ⟨name, hname, rfl⟩ := hread hkey
        obtain ⟨before', text, hbefore', htext, rfl⟩ := value_reads fuel hv hvalue
        refine ⟨List.cons_ne_nil _ _, name ++ ':' :: (before' ++ (text ++ gap')),
          ⟨name, _, hname, ⟨before', text, gap', hbefore', htext, hgap', rfl⟩, rfl⟩, ?_⟩
        rw [hlast, heq']
        simp
      next => cases h
    next => cases h

end

/-! ## Texts -/

/-- A text is read as a value, if its strings are texts, exactly if it is one of its texts. -/
theorem isTextOf_iff_parse? {t : String} (hsound : v.sound = true) :
    IsTextOf v t ↔ parse? t = some v := by
  refine ⟨parse?_of_isTextOf, fun h => ?_⟩
  unfold parse? parseChars? at h
  obtain ⟨⟨w, mid⟩, hw, h⟩ := Option.bind_eq_some_iff.mp h
  simp only at h
  split at h
  next hend =>
    cases h
    obtain ⟨before, text, hbefore, htext, hcs⟩ := value_reads _ hw hsound
    obtain ⟨after, hafter, hmid⟩ := exists_blank_skip mid
    rw [List.isEmpty_iff.mp hend, List.append_nil] at hmid
    exact ⟨before, text, after, hbefore, htext, hafter, hmid ▸ hcs⟩
  next => cases h

end RoomHub.Json
