import RoomHub.Calendar
import RoomHub.Participant

/-!
# Messages

A `Draft` is what a sender hands in; the store makes a `Message` of it by giving it a
number, the sender's name in the room and the moment. A text draft holds `Content`, which
is never empty; the caption of an image may be.
-/

namespace RoomHub

/-- Whether a message is text or an image with a caption. -/
inductive MessageKind where
  | text
  | image
  deriving DecidableEq, Repr, Inhabited

/-- The word for a kind of message. -/
def MessageKind.toText : MessageKind → String
  | .text => "text"
  | .image => "image"

/-- The content of a text message, which is not empty. -/
structure Content where
  text : String
  nonempty : text ≠ ""
  deriving DecidableEq, Repr

/-- Accepts every text but the empty one. -/
def Content.ofString (s : String) : Except ValueError Content :=
  if h : s = "" then .error .emptyContent else .ok ⟨s, h⟩

/-- A message before it is stored. -/
structure Draft where
  content : String
  kind : MessageKind
  mediaUrl : Option String
  deriving DecidableEq, Repr

/-- A text message. -/
def Draft.text (c : Content) : Draft := ⟨c.text, .text, none⟩

/-- An image with a caption. -/
def Draft.image (caption mediaUrl : String) : Draft := ⟨caption, .image, some mediaUrl⟩

/-- A stored message. -/
structure Message where
  id : Int
  room : RoomId
  user : UserId
  name : String
  content : String
  kind : MessageKind
  mediaUrl : Option String
  createdAt : Instant
  deriving DecidableEq, Repr, Inhabited

end RoomHub
