import RoomHub.WebSocket.Frame

/-!
# Messages from a client

`Inbound` holds the bytes that are not read yet and the parts of a message that is not
complete. `next` reads on to the next message: a text or a binary message, whole or in
parts, or a control frame, which may stand between the parts. Anything against the rules
is refused: a reserved bit, a long or split control frame, a part without a beginning, a
new message before the old one ended, more bytes than the limit, or a text that is not
UTF-8, which is noticed at the first part that no bytes to come could mend.
-/

namespace RoomHub.WebSocket

/-- A message from a client. -/
inductive Item where
  | text (s : String)
  | binary (bytes : List UInt8)
  | ping (payload : List UInt8)
  | pong (payload : List UInt8)
  | close (reason : Option CloseReason)
  deriving DecidableEq, Repr

/-- The parts of a message so far. -/
structure Partial where
  isText : Bool
  bytes : List UInt8
  deriving DecidableEq, Repr

/-- The bytes that are not read yet, and the message that is not complete. -/
structure Inbound where
  buffer : List UInt8
  parts : Option Partial
  deriving DecidableEq, Repr, Inhabited

/-- What reading on finds: not enough bytes, something refused, or a message. -/
inductive Found where
  | waiting
  | refused
  | item (i : Item)
  deriving DecidableEq, Repr

namespace Inbound

/-- Nothing is read and nothing is waiting. -/
def empty : Inbound := ⟨[], none⟩

/-- More bytes came in. -/
def receive (bs : List UInt8) (s : Inbound) : Inbound := { s with buffer := s.buffer ++ bs }

/-- A complete message. -/
def complete (isText : Bool) (bytes : List UInt8) : Found :=
  if isText then
    match Text.Utf8.text? bytes with
    | some s => .item (.text s)
    | none => .refused
  else .item (.binary bytes)

/-- What a close frame says: nothing, or a code and a reason. -/
def closeReason? (payload : List UInt8) : Option (Option CloseReason) :=
  match payload with
  | [] => some none
  | [_] => none
  | a :: b :: reason =>
    (Text.Utf8.text? reason).map fun s => some ⟨natOfBytes [a, b], s⟩

/-- What a control frame is. -/
def control (f : Frame) : Found :=
  if !f.final ∨ f.payload.length > 125 then .refused
  else match f.opcode with
    | .ping => .item (.ping f.payload)
    | .pong => .item (.pong f.payload)
    | _ =>
      match closeReason? f.payload with
      | some r => .item (.close r)
      | none => .refused

/-- Adds a part to a message: what is found, and what is left incomplete. -/
def addPart (limit : Nat) (final : Bool) (p : Partial) (payload : List UInt8) :
    Found × Option Partial :=
  let bytes := p.bytes ++ payload
  if limit < bytes.length then (.refused, none)
  else if p.isText ∧ Text.Utf8.refused bytes then (.refused, none)
  else if final then (complete p.isText bytes, none)
  else (.waiting, some ⟨p.isText, bytes⟩)

/-- What a data frame is, given the parts before it. -/
def data (limit : Nat) (parts : Option Partial) (f : Frame) : Found × Option Partial :=
  match f.opcode, parts with
  | .continuation, some p => addPart limit f.final p f.payload
  | .continuation, none => (.refused, none)
  | _, some _ => (.refused, none)
  | op, none => addPart limit f.final ⟨op = .text, []⟩ f.payload

/-- Reads on through as many frames as the fuel allows; the number of bytes is always
enough, since every frame has some. -/
def nextWithin (limit : Nat) : Nat → Inbound → Found × Inbound
  | 0, s => (.waiting, s)
  | fuel + 1, s =>
    match Frame.take limit s.buffer with
    | .incomplete => (.waiting, s)
    | .refused => (.refused, s)
    | .frame f rest =>
      if f.reserved then (.refused, s)
      else if f.opcode.isControl then (control f, { s with buffer := rest })
      else
        match data limit s.parts f with
        | (.waiting, parts) => nextWithin limit fuel ⟨rest, parts⟩
        | (found, parts) => (found, ⟨rest, parts⟩)

/-- Reads on to the next message. -/
def next (limit : Nat) (s : Inbound) : Found × Inbound :=
  nextWithin limit (s.buffer.length + 1) s

end Inbound

end RoomHub.WebSocket
