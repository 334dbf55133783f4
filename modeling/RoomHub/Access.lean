import RoomHub.Program
import RoomHub.Token

/-!
# Access to a room

A caller shows a token and names a room. The checks run in a fixed order: the token, the
text of the room's identifier, whether the room exists, whether the caller is a member.
What a token proves is a parameter, a `Verifier`.
-/

namespace RoomHub

/-- What tells the identity that a token proves. -/
abbrev Verifier := String → Except TokenError Participant

/-- Why a caller has no access. -/
inductive AccessError where
  | unauthorized (reason : TokenError)
  | roomNotFound (room : RoomId)
  | forbidden (room : RoomId) (user : UserId)
  | store (reason : StoreError)
  deriving DecidableEq, Repr

/-- The text shown for a caller without access. -/
def AccessError.message : AccessError → String
  | unauthorized reason => s!"unauthorized: {reason.message}"
  | roomNotFound r => s!"room '{r}' not found"
  | forbidden r u => s!"user '{u}' is not a member of room '{r}'"
  | store reason => s!"store lookup failed: {reason.message}"

namespace Access

/-- The identity of a caller; an empty token counts as none. -/
def authenticate (verify : Verifier) (token : Option String) : Except AccessError Participant :=
  match token.filter (!·.isEmpty) with
  | none => .error (.unauthorized .missing)
  | some t =>
    match verify t with
    | .ok who => .ok who
    | .error reason => .error (.unauthorized reason)

/-- Whether a caller may enter a room. -/
def authorize (who : Participant) (r : RoomId) : Program (Except AccessError Unit) := do
  match ← Program.perform (.roomExists r) with
  | .error e => return .error (.store e)
  | .ok false => return .error (.roomNotFound r)
  | .ok true =>
    match ← Program.perform (.isMember r who.user) with
    | .error e => return .error (.store e)
    | .ok false => return .error (.forbidden r who.user)
    | .ok true => return .ok ()

end Access

end RoomHub
