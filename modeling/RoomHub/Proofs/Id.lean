import Mathlib.Algebra.GroupWithZero.Nat
import RoomHub.Id
import RoomHub.Proofs.Text.Hex

/-!
# Identifiers and their texts

The digits of an identifier read as its bits, and peeling the layout off the hyphenated
text leaves them:

> `Uuid.parse?_toText`: an identifier is found again in its text.
-/

namespace RoomHub

namespace Uuid

/-- Putting hyphens between groups is undone by taking them out. -/
theorem unhyphenate?_hyphenate {ns : List Nat} {ds : List Char} (hlen : ds.length = ns.sum) :
    unhyphenate? ns (hyphenate ns ds) = some ds := by
  fun_induction hyphenate ns ds with
  | case1 ds =>
    rw [List.length_eq_zero_iff.mp hlen]
    rfl
  | case2 n ds =>
    have hn : ds.length = n := hlen
    rw [List.take_of_length_le (Nat.le_of_eq hn)]
    exact if_pos hn
  | case3 n ns ds hns ih =>
    have hsum : ds.length = n + ns.sum := hlen
    have htake : (ds.take n).length = n := by
      rw [List.length_take]
      omega
    have hrest := ih (by rw [List.length_drop]; omega)
    rw [unhyphenate?, if_neg (by rw [List.length_append, htake]; omega), List.drop_left' htake,
      List.take_left' htake]
    · simp only [hrest, Option.map_some, List.take_append_drop]
    · exact hns

/-- A grouped text is longer than its digits by the hyphens between the groups. -/
theorem length_hyphenate {ns : List Nat} {ds : List Char} (hne : ns ≠ [])
    (hlen : ds.length = ns.sum) : (hyphenate ns ds).length = ds.length + (ns.length - 1) := by
  fun_induction hyphenate ns ds with
  | case1 ds => exact absurd rfl hne
  | case2 n ds =>
    have hn : ds.length = n := hlen
    rw [List.take_of_length_le (Nat.le_of_eq hn)]
    rfl
  | case3 n ns ds hns ih =>
    have hsum : ds.length = n + ns.sum := hlen
    have hrest := ih hns (by rw [List.length_drop]; omega)
    have hpos : 0 < ns.length := List.length_pos_iff.mpr hns
    rw [List.length_append, List.length_cons, hrest, List.length_take, List.length_drop,
      List.length_cons]
    omega

/-- An identifier is found again in its text. -/
theorem parse?_toText (u : Uuid) : parse? u.toText = some u := by
  have hlen : u.digits.length = groups.sum := Text.Hex.length_ofNat 32 _
  have hwhole : (hyphenate groups u.digits).length = 36 := by
    rw [length_hyphenate (by decide) hlen, hlen]
    rfl
  have hdigits : digits? (hyphenate groups u.digits) = some u.digits := by
    unfold digits?
    rw [if_neg (by omega), if_pos hwhole, unhyphenate?_hyphenate hlen]
  have hbits : u.bits.toNat % 16 ^ 32 = u.bits.toNat := Nat.mod_eq_of_lt u.bits.isLt
  unfold parse? toText
  rw [String.toList_ofList, hdigits]
  show (Text.Hex.toNat? (Text.Hex.ofNat 32 u.bits.toNat)).bind _ = _
  rw [Text.Hex.toNat?_ofNat, hbits, Option.bind_some, BitVec.ofNat_toNat, BitVec.setWidth_eq]
  rfl

end Uuid

namespace Id

variable {kind : IdKind}

theorem parse?_toText (id : Id kind) : parse? kind id.toText = some id := by
  unfold parse? toText
  rw [Uuid.parse?_toText]
  rfl

end Id

theorem RoomId.parse_toText (r : RoomId) : RoomId.parse r.toText = .ok r := by
  unfold RoomId.parse
  rw [Id.parse?_toText]

theorem UserId.parse_toText (u : UserId) : UserId.parse u.toText = .ok u := by
  unfold UserId.parse
  rw [Id.parse?_toText]

end RoomHub
