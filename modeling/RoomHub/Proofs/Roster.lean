import Mathlib.Algebra.Group.Nat.Defs
import RoomHub.Participant
import RoomHub.Proofs.Text.Utf8

/-!
# The roster order

The roster order is a linear order on participants: the bytes of a name determine the
name, so two participants that stand level are the same. A sorted list is therefore
determined by its members, which is what makes a roster independent of how it was
collected:

> `sort_congr`: lists with the same members, counted, have the same roster;
> `filter_sort`: leaving people out before or after sorting is the same.

`IsRoster` says what the roster of given people is without sorting anything: the one list that has
each of them once and goes by the bytes of the names and then by those of the identifiers.

> `IsRoster.unique`: there is one roster of given people;
> `isRoster_sort_table`: what is collected from a table with one entry for each user, in whatever
> order the entries come, and then sorted, is the roster of the people in the table.
-/

namespace RoomHub

open Std (ExtTreeMap)

namespace Participant

theorem eq_of_user_of_name {p q : Participant} (huser : p.user = q.user)
    (hname : p.name = q.name) : p = q := by
  cases p; cases q
  cases huser; cases hname
  rfl

instance : Std.TransCmp order :=
  inferInstanceAs (Std.TransCmp
    (compareLex (compareOn fun p : Participant => Text.Utf8.bytes p.name) (compareOn user)))

instance : Std.LawfulEqCmp order where
  eq_of_compare {a b} h := by
    unfold order at h
    rw [Ordering.then_eq_eq] at h
    obtain ⟨hname, huser⟩ := h
    cases a; cases b
    simp only [mk.injEq]
    exact ⟨Std.LawfulEqOrd.eq_of_compare huser,
      Text.Utf8.bytes_injective (Std.LawfulEqOrd.eq_of_compare hname)⟩

theorem sort_perm (ps : List Participant) : (sort ps).Perm ps :=
  List.mergeSort_perm ps _

theorem sort_pairwise (ps : List Participant) :
    (sort ps).Pairwise fun a b => (order a b).isLE = true := by
  apply List.pairwise_mergeSort
  · intro a b c hab hbc
    exact Std.TransCmp.isLE_trans hab hbc
  · intro a b
    rw [Bool.or_eq_true]
    cases hab : order a b with
    | lt => exact Or.inl rfl
    | eq => exact Or.inl rfl
    | gt =>
      have hswap : order b a = (order a b).swap := Std.OrientedCmp.eq_swap
      right
      rw [hswap, hab]
      rfl

/-- In roster order there is one way to list given people. -/
theorem eq_of_pairwise {ps qs : List Participant} (hperm : ps.Perm qs)
    (hps : ps.Pairwise fun a b => (order a b).isLE = true)
    (hqs : qs.Pairwise fun a b => (order a b).isLE = true) : ps = qs := by
  refine List.Perm.eq_of_pairwise ?_ hps hqs hperm
  intro a b _ _ hab hba
  exact Std.LawfulEqCmp.eq_of_compare (Std.OrientedCmp.isLE_antisymm hab hba)

/-- The sorted roster does not depend on the order it is sorted from. -/
theorem sort_congr {ps qs : List Participant} (h : ps.Perm qs) : sort ps = sort qs :=
  eq_of_pairwise ((sort_perm ps).trans (h.trans (sort_perm qs).symm))
    (sort_pairwise ps) (sort_pairwise qs)

/-- Whether a roster is filtered before or after it is sorted does not matter. -/
theorem filter_sort (keep : Participant → Bool) (ps : List Participant) :
    (sort ps).filter keep = sort (ps.filter keep) :=
  eq_of_pairwise (((sort_perm ps).filter keep).trans (sort_perm _).symm)
    ((sort_pairwise ps).filter keep) (sort_pairwise _)

@[simp] theorem mem_sort {p : Participant} {ps : List Participant} : p ∈ sort ps ↔ p ∈ ps :=
  (sort_perm ps).mem_iff

end Participant

/-! ## The bytes of identifiers -/

/-- The low bytes of a number, most significant first. -/
def bigEndian : (width : Nat) → Nat → List UInt8
  | 0, _ => []
  | width + 1, n => UInt8.ofNat (n / 256 ^ width) :: bigEndian width n

/-- Two numbers compare by their quotients first, and then by their remainders. -/
theorem compare_div_mod (k m n : Nat) :
    compare m n = (compare (m / k) (n / k)).then (compare (m % k) (n % k)) := by
  have hm := Nat.div_add_mod m k
  have hn := Nat.div_add_mod n k
  rcases Nat.lt_trichotomy (m / k) (n / k) with hlt | heq | hgt
  · rw [Nat.compare_eq_lt.mpr hlt]
    exact Nat.compare_eq_lt.mpr (Nat.lt_of_div_lt_div hlt)
  · rw [Nat.compare_eq_eq.mpr heq, Ordering.eq_then]
    rw [heq] at hm
    simp only [Nat.compare_eq_ite_lt]
    congr 1
    · exact propext (by omega)
    · congr 1
      exact propext (by omega)
  · rw [Nat.compare_eq_gt.mpr hgt]
    exact Nat.compare_eq_gt.mpr (Nat.lt_of_div_lt_div hgt)

theorem compare_uint8 (a b : UInt8) : compare a b = compare a.toNat b.toNat := by
  simp only [compare, compareOfLessAndEq, UInt8.lt_iff_toNat_lt, UInt8.toNat_inj]

/-- Numbers compare as their bytes do, one after the other. -/
theorem compare_bigEndian (width m n : Nat) :
    compare (bigEndian width m) (bigEndian width n)
      = compare (m % 256 ^ width) (n % 256 ^ width) := by
  induction width with
  | zero => simp [bigEndian, Nat.mod_one]
  | succ width ih =>
    have hhead (k : Nat) :
        k % 256 ^ (width + 1) / 256 ^ width = (UInt8.ofNat (k / 256 ^ width)).toNat := by
      rw [Nat.pow_succ, Nat.mod_mul_right_div_self, UInt8.toNat_ofNat']
    have htail (k : Nat) : k % 256 ^ (width + 1) % 256 ^ width = k % 256 ^ width :=
      Nat.mod_mod_of_dvd k (Nat.pow_dvd_pow 256 (Nat.le_succ width))
    rw [compare_div_mod (256 ^ width), hhead, hhead, htail, htail, bigEndian, bigEndian,
      List.compare_cons_cons, ih, compare_uint8]

/-- The 16 bytes of an identifier. -/
def Uuid.bytes (u : Uuid) : List UInt8 := bigEndian 16 u.bits.toNat

/-- Comparing ids is comparing their bytes from the first on. -/
theorem Uuid.compare_bytes (u v : Uuid) : compare u.bytes v.bytes = compare u v := by
  have hbits (b : BitVec 128) : b.toNat % 256 ^ 16 = b.toNat := Nat.mod_eq_of_lt b.isLt
  unfold bytes
  rw [compare_bigEndian, hbits, hbits]
  show _ = compare u.bits v.bits
  simp only [compare, compareOfLessAndEq, BitVec.lt_def, BitVec.toNat_eq]

/-! ## Rosters -/

namespace Participant

variable {ps qs : List Participant} {people : Participant → Prop} {p q : Participant}

/-- Compares the bytes of the names, and then those of the identifiers. -/
def byBytes (a b : Participant) : Ordering :=
  (compare (Text.Utf8.bytes a.name) (Text.Utf8.bytes b.name)).then
    (compare a.user.uuid.bytes b.user.uuid.bytes)

/-- Participants are ordered by the bytes of their names and then of their ids. -/
theorem order_eq_byBytes (a b : Participant) : order a b = byBytes a b := by
  unfold order byBytes
  rw [Uuid.compare_bytes]
  rfl

theorem nodup_of_users (h : (ps.map (·.user)).Nodup) : ps.Nodup :=
  List.Pairwise.of_map _ (fun _ _ hne heq => hne (congrArg user heq)) h

/-- The roster of given people: strictly increasing, all of them and nobody else, and no user
twice. -/
structure IsRoster (ps : List Participant) (people : Participant → Prop) : Prop where
  increasing : ps.Pairwise fun a b => byBytes a b = .lt
  complete : ∀ p, p ∈ ps ↔ people p
  once : (ps.map (·.user)).Nodup

/-- There is one roster of given people. -/
theorem IsRoster.unique (hps : IsRoster ps people) (hqs : IsRoster qs people) : ps = qs := by
  have hle {rs : List Participant} (hrs : IsRoster rs people) :
      rs.Pairwise fun a b => (order a b).isLE = true := by
    refine hrs.increasing.imp fun h => ?_
    rw [order_eq_byBytes, h]
    rfl
  have hperm : ps.Perm qs :=
    (List.perm_ext_iff_of_nodup (nodup_of_users hps.once) (nodup_of_users hqs.once)).mpr fun p =>
      (hps.complete p).trans (hqs.complete p).symm
  exact eq_of_pairwise hperm (hle hps) (hle hqs)

theorem IsRoster.congr {people' : Participant → Prop} (h : IsRoster ps people)
    (hsame : ∀ p, people p ↔ people' p) : IsRoster ps people' :=
  ⟨h.increasing, fun p => (h.complete p).trans (hsame p), h.once⟩

/-- Whoever is listed once each is listed in a roster after sorting. -/
theorem isRoster_sort (husers : (ps.map (·.user)).Nodup) : IsRoster (sort ps) (· ∈ ps) where
  increasing := by
    have hne : (sort ps).Pairwise (· ≠ ·) :=
      (sort_perm ps).nodup_iff.mpr (nodup_of_users husers)
    refine ((sort_pairwise ps).and hne).imp fun ⟨hle, hne⟩ => ?_
    rw [← order_eq_byBytes]
    refine (Ordering.isLE_iff_eq_lt_or_eq_eq.mp hle).resolve_right fun heq => hne ?_
    exact Std.LawfulEqCmp.eq_of_compare heq
  complete p := mem_sort
  once := ((sort_perm ps).map _).nodup_iff.mpr husers

/-- What is collected from a table of users, in whatever order the entries come, is the roster of
the people in it. -/
theorem isRoster_sort_table {α : Type} {t : ExtTreeMap UserId α} {f : UserId × α → Participant}
    (huser : ∀ {u a}, t[u]? = some a → (f (u, a)).user = u) (hps : ps.Perm (t.toList.map f)) :
    IsRoster (sort ps) fun p => ∃ a, t[p.user]? = some a ∧ f (p.user, a) = p := by
  have hkeys : (t.toList.map f).map (·.user) = t.toList.map Prod.fst := by
    rw [List.map_map]
    refine List.map_congr_left fun entry hentry => ?_
    exact huser (ExtTreeMap.mem_toList_iff_getElem?_eq_some.mp hentry)
  have husers : ((t.toList.map f).map (·.user)).Nodup := by
    rw [hkeys, List.nodup_iff_pairwise_ne, List.pairwise_map]
    refine ExtTreeMap.distinct_keys_toList.imp fun hne heq => hne ?_
    exact Std.compare_eq_iff_eq.mpr heq
  refine (isRoster_sort ((hps.map _).nodup_iff.mpr husers)).congr fun p => ?_
  rw [hps.mem_iff]
  simp only [List.mem_map, Prod.exists, ExtTreeMap.mem_toList_iff_getElem?_eq_some]
  constructor
  · rintro ⟨u, a, hentry, rfl⟩
    have hself := huser hentry
    exact ⟨a, hself.symm ▸ hentry, by rw [hself]⟩
  · rintro ⟨a, hentry, hp⟩
    exact ⟨p.user, a, hentry, hp⟩

/-- Whether nobody goes by two names. -/
def NamedOnce (people : Participant → Prop) : Prop :=
  ∀ p q, people p → people q → p.user = q.user → p.name = q.name

end Participant

end RoomHub
