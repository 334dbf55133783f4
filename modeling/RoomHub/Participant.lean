import RoomHub.Id
import RoomHub.Text.Utf8

/-!
# Participants and their roster order

Every list of people that the hub shows is in one order: by the bytes of the display
name, then by the identifier. The order is total on pairs of a name and an identifier, so
a roster is the same list however it was collected.
-/

namespace RoomHub

/-- A user as the others in a room see them. -/
structure Participant where
  user : UserId
  name : String
  deriving DecidableEq, Repr, Inhabited

namespace Participant

/-- The roster order: by the bytes of the name, then by the identifier. -/
def order (a b : Participant) : Ordering :=
  (compare (Text.Utf8.bytes a.name) (Text.Utf8.bytes b.name)).then (compare a.user b.user)

/-- The participants in roster order. -/
def sort (ps : List Participant) : List Participant :=
  ps.mergeSort fun a b => (order a b).isLE

end Participant

end RoomHub
