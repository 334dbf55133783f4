import RoomHub.Program

/-!
# Posting messages

A message is stored first and then offered to everyone connected to its room, the sender
included. What is not stored is not offered to anyone.
-/

namespace RoomHub

/-- Why a message was not posted. -/
inductive PostError where
  | emptyContent
  | persist (reason : StoreError)
  deriving DecidableEq, Repr

/-- The text shown for a message that was not posted. -/
def PostError.message : PostError → String
  | emptyContent => "message content must not be empty"
  | persist reason => s!"failed to persist message: {reason.message}"

namespace Posting

/-- Offers a stored message to everyone connected to its room. -/
def announce (m : Message) : Program Report :=
  Program.perform (.broadcast m.room (.chat m))

/-- Stores a draft and announces the message it became. -/
def post (r : RoomId) (u : UserId) (d : Draft) : Program (Except PostError Message) := do
  match ← Program.perform (.persist r u d) with
  | .error e => return .error (.persist e)
  | .ok m =>
    let _ ← announce m
    return .ok m

/-- Posts a text. -/
def send (r : RoomId) (u : UserId) (content : String) : Program (Except PostError Message) :=
  match Content.ofString content with
  | .error _ => return .error .emptyContent
  | .ok c => post r u (.text c)

end Posting

end RoomHub
