import RoomHub.Proofs.Id

/-!
# The layouts of an identifier

A text spells some digits when it is one of the four layouts around 32 of them: the digits
alone, the hyphenated groups, the groups in braces, the groups behind `urn:uuid:`. Exactly
such texts are read, and what is read is decided by the digits up to letter case.

> `digits?_eq_some_iff`: peeling the layout off finds the digits that were laid out;
> `parse?_eq_some_iff`: which texts are read, and as what;
> `Spells.parse?_eq_iff`: which texts are read as one identifier.
-/

namespace RoomHub.Uuid

/-- The layouts around some digits. -/
inductive Writes (ds : List Char) : List Char → Prop where
  | plain : Writes ds ds
  | hyphenated : Writes ds (hyphenate groups ds)
  | braced : Writes ds ('{' :: hyphenate groups ds ++ ['}'])
  | urn {mark : List Char} (hmark : mark.map lower = urnPrefix) :
      Writes ds (mark ++ hyphenate groups ds)

/-- A text of one of the layouts around 32 hexadecimal digits, of either letter case. -/
structure Spells (s : String) (ds : List Char) : Prop where
  length : ds.length = 32
  digits : ∀ c ∈ ds, c ∈ Text.Hex.alphabet
  layout : Writes ds s.toList

variable {ds ds' cs : List Char} {s s' : String} {u : Uuid}

/-! ## Peeling the layout off -/

/-- Groups are read exactly if they were written so. -/
theorem unhyphenate?_eq_some_iff {ns : List Nat} :
    unhyphenate? ns cs = some ds ↔ ds.length = ns.sum ∧ cs = hyphenate ns ds := by
  refine ⟨fun h => ?_, fun ⟨hlen, hcs⟩ => hcs ▸ unhyphenate?_hyphenate hlen⟩
  fun_induction unhyphenate? ns cs generalizing ds with
  | case1 cs hempty =>
    cases h
    exact ⟨rfl, List.isEmpty_iff.mp hempty⟩
  | case2 | case4 | case5 | case7 => cases h
  | case3 cs =>
    cases h
    exact ⟨rfl, List.take_length.symm⟩
  | case6 n ns cs hns hlong rest hdrop ih =>
    obtain ⟨ds', hrest, rfl⟩ := Option.map_eq_some_iff.mp h
    obtain ⟨hlen, rfl⟩ := ih hrest
    have htake : (cs.take n).length = n := by
      rw [List.length_take]
      omega
    refine ⟨by rw [List.length_append, htake, hlen, List.sum_cons], ?_⟩
    rw [hyphenate, List.take_left' htake, List.drop_left' htake, ← hdrop, List.take_append_drop]
    exact hns

/-- Thirty-two digits in the canonical grouping take thirty-six characters. -/
theorem length_groups (hlen : ds.length = 32) : (hyphenate groups ds).length = 36 := by
  rw [length_hyphenate (by decide) hlen, hlen]
  rfl

/-- A spelling of the URN mark has its nine characters, whatever its case. -/
theorem length_of_lower {mark : List Char} (hmark : mark.map lower = urnPrefix) :
    mark.length = 9 := by
  rw [← List.length_map lower, hmark]
  rfl

/-- The digits of a layout are found, whatever they are. -/
theorem digits?_of_writes (hlen : ds.length = 32) (h : Writes ds cs) : digits? cs = some ds := by
  have hgroups := length_groups hlen
  have hpeeled : unhyphenate? groups (hyphenate groups ds) = some ds := unhyphenate?_hyphenate hlen
  unfold digits?
  cases h with
  | plain => rw [if_pos hlen]
  | hyphenated => rw [if_neg (by omega), if_pos hgroups, hpeeled]
  | braced =>
    have hlong : ('{' :: hyphenate groups ds ++ ['}']).length = 38 := by
      rw [List.length_append, List.length_cons, hgroups]
      rfl
    rw [if_neg (by omega), if_neg (by omega), if_pos ⟨hlong, rfl, List.getLast?_concat⟩]
    rw [List.cons_append, List.drop_one, List.tail_cons, List.dropLast_concat, hpeeled]
  | @urn mark hmark =>
    have hnine := length_of_lower hmark
    have hlong : (mark ++ hyphenate groups ds).length = 45 := by
      rw [List.length_append, hnine, hgroups]
    rw [if_neg (by omega), if_neg (by omega), if_neg (by omega), List.take_left' hnine,
      if_pos ⟨hlong, hmark⟩, List.drop_left' hnine, hpeeled]

/-- Peeling the layout off finds the digits that were laid out. -/
theorem digits?_eq_some_iff : digits? cs = some ds ↔ ds.length = 32 ∧ Writes ds cs := by
  refine ⟨fun h => ?_, fun ⟨hlen, h⟩ => digits?_of_writes hlen h⟩
  unfold digits? at h
  split at h
  next hplain =>
    cases h
    exact ⟨hplain, .plain⟩
  next =>
    split at h
    next =>
      obtain ⟨hlen, rfl⟩ := unhyphenate?_eq_some_iff.mp h
      exact ⟨hlen, .hyphenated⟩
    next =>
      split at h
      next hbraces =>
        obtain ⟨-, hopen, hclose⟩ := hbraces
        obtain ⟨hlen, hgroups⟩ := unhyphenate?_eq_some_iff.mp h
        obtain ⟨rest, rfl⟩ := List.head?_eq_some_iff.mp hopen
        -- the brace at the end is another one than that at the front
        have hrest : rest.getLast? = some '}' := by
          cases rest with
          | nil => cases hclose
          | cons c rest => rwa [List.getLast?_cons_cons] at hclose
        obtain ⟨body, rfl⟩ := List.getLast?_eq_some_iff.mp hrest
        rw [List.drop_one, List.tail_cons, List.dropLast_concat] at hgroups
        subst hgroups
        exact ⟨hlen, .braced⟩
      next =>
        split at h
        next hmark =>
          obtain ⟨hlen, hgroups⟩ := unhyphenate?_eq_some_iff.mp h
          have hwhole := List.take_append_drop 9 cs
          rw [hgroups] at hwhole
          rw [← hwhole]
          exact ⟨hlen, .urn hmark.2⟩
        next => cases h

/-! ## Reading the digits -/

/-- The digits tell an identifier. -/
theorem digits_injective : Function.Injective digits := by
  intro u u' h
  have htext : u.toText = u'.toText := congrArg (fun ds => String.ofList (hyphenate groups ds)) h
  have hparse := parse?_toText u
  rw [htext, parse?_toText] at hparse
  exact (Option.some.inj hparse).symm

/-- A text that spells digits is read, as the identifier with these digits in lower case. -/
theorem Spells.exists_parse? (h : Spells s ds) :
    ∃ u, parse? s = some u ∧ u.digits = ds.map Char.toLower := by
  obtain ⟨n, hn⟩ := Text.Hex.exists_toNat?_iff.mpr h.digits
  have hlt : n < 2 ^ 128 := by
    have hlt := Text.Hex.toNat?_lt hn
    rwa [h.length] at hlt
  refine ⟨⟨BitVec.ofNat 128 n⟩, ?_, ?_⟩
  · unfold parse?
    rw [digits?_of_writes h.length h.layout, Option.bind_eq_bind, Option.bind_some, hn]
    rfl
  · show Text.Hex.ofNat 32 (BitVec.ofNat 128 n).toNat = _
    rw [BitVec.toNat_ofNat, Nat.mod_eq_of_lt hlt, ← h.length]
    exact Text.Hex.ofNat_of_toNat? hn

/-- Which texts are read, and as what: the digits become those of the identifier once their
letters are lower case. -/
theorem parse?_eq_some_iff :
    parse? s = some u ↔ ∃ ds, Spells s ds ∧ u.digits = ds.map Char.toLower := by
  constructor
  · intro h
    obtain ⟨ds, hds, hvalue⟩ := Option.bind_eq_some_iff.mp h
    obtain ⟨n, hn, -⟩ := Option.bind_eq_some_iff.mp hvalue
    obtain ⟨hlen, hlayout⟩ := digits?_eq_some_iff.mp hds
    have hspells : Spells s ds := ⟨hlen, Text.Hex.exists_toNat?_iff.mp ⟨n, hn⟩, hlayout⟩
    -- reading the text gives one identifier only, so its digits are those of `u`
    obtain ⟨u', hu', hdigits⟩ := hspells.exists_parse?
    rw [h, Option.some.injEq] at hu'
    exact ⟨ds, hspells, hu' ▸ hdigits⟩
  · rintro ⟨ds, hspells, hdigits⟩
    obtain ⟨u', hu', hdigits'⟩ := hspells.exists_parse?
    rw [digits_injective (hdigits.trans hdigits'.symm), hu']

/-- Braces go with hyphens only. -/
example : parse? "\x7b000000000000000000000000000000aB\x7d" = none := by decide

/-- A text spells its digits one way only. -/
theorem Spells.unique (h : Spells s ds) (h' : Spells s ds') : ds = ds' := by
  have hds := digits?_of_writes h.length h.layout
  rw [digits?_of_writes h'.length h'.layout] at hds
  exact (Option.some.inj hds).symm

/-- Two texts are read as one identifier exactly if their digits agree up to letter case. -/
theorem Spells.parse?_eq_iff (h : Spells s ds) (h' : Spells s' ds') :
    parse? s = parse? s' ↔ ds.map Char.toLower = ds'.map Char.toLower := by
  obtain ⟨u, hu, hdigits⟩ := h.exists_parse?
  obtain ⟨u', hu', hdigits'⟩ := h'.exists_parse?
  rw [hu, hu', Option.some.injEq, ← hdigits, ← hdigits']
  exact digits_injective.eq_iff.symm

/-- The text of an identifier is the hyphenated layout of the lower-case digits, however the
text spelled them that it was read from. -/
theorem toText_eq_of_spells (h : Spells s ds) (hu : parse? s = some u) :
    u.toText = String.ofList (hyphenate groups (ds.map Char.toLower)) := by
  obtain ⟨ds', hspells, hdigits⟩ := parse?_eq_some_iff.mp hu
  unfold toText
  rw [hdigits, hspells.unique h]

end RoomHub.Uuid
