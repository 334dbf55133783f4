import RoomHub.Text.Utf8

/-!
# WebSocket frames

The frames of the WebSocket protocol as bytes. Frames from a client are masked; a frame is
refused as soon as its header shows an operation that does not exist or a length above the
limit, and an unmasked one when it is complete. Frames to a client are neither masked nor
split.
-/

namespace RoomHub.WebSocket

/-- What a frame is for. -/
inductive Opcode where
  | continuation
  | text
  | binary
  | close
  | ping
  | pong
  deriving DecidableEq, Repr

namespace Opcode

/-- The operation that a number stands for. -/
def ofNat? : Nat → Option Opcode
  | 0x0 => some continuation
  | 0x1 => some text
  | 0x2 => some binary
  | 0x8 => some close
  | 0x9 => some ping
  | 0xA => some pong
  | _ => none

/-- The number of an operation. -/
def toNat : Opcode → Nat
  | continuation => 0x0
  | text => 0x1
  | binary => 0x2
  | close => 0x8
  | ping => 0x9
  | pong => 0xA

/-- Whether a frame of this kind may stand between the parts of a message. -/
def isControl : Opcode → Bool
  | close | ping | pong => true
  | _ => false

end Opcode

/-- A frame: whether it ends its message, whether a reserved bit is set, what it is for
and what it carries. -/
structure Frame where
  final : Bool
  reserved : Bool
  opcode : Opcode
  payload : List UInt8
  deriving DecidableEq, Repr

/-- A number from its bytes, most significant first. -/
def natOfBytes (bs : List UInt8) : Nat := bs.foldl (fun n b => 256 * n + b.toNat) 0

/-- The low bytes of a number, most significant first. -/
def bytesOfNat (width n : Nat) : List UInt8 :=
  (List.range width).map fun i => UInt8.ofNat (n >>> (8 * (width - 1 - i)))

/-- Applies a mask, or takes it off. -/
def applyMask (mask : List UInt8) (bs : List UInt8) : List UInt8 :=
  match mask with
  | [a, b, c, d] =>
    bs.zipWith (· ^^^ ·) ((List.replicate (bs.length / 4 + 1) [a, b, c, d]).flatten)
  | _ => bs

/-- What stands at the front of the bytes from a client: not yet a whole frame, something
refused, or a frame and the bytes that follow it. -/
inductive Taken where
  | incomplete
  | refused
  | frame (f : Frame) (rest : List UInt8)
  deriving DecidableEq, Repr

/-- How many bytes behind the first two hold the length. -/
def lengthWidth (short : Nat) : Nat :=
  if short = 126 then 2 else if short = 127 then 8 else 0

/-- Takes a frame from the front of the bytes from a client. -/
def Frame.take (limit : Nat) : List UInt8 → Taken
  | first :: second :: rest =>
    let short := second.toNat % 128
    let masked := second.toNat / 128 = 1
    let width := lengthWidth short
    let maskWidth := if masked then 4 else 0
    if rest.length < width + maskWidth then .incomplete
    else match Opcode.ofNat? (first.toNat % 16) with
      | none => .refused
      | some opcode =>
        let length := if width = 0 then short else natOfBytes (rest.take width)
        let body := rest.drop (width + maskWidth)
        if limit < length then .refused
        else if body.length < length then .incomplete
        else if !masked then .refused
        else
          let mask := (rest.drop width).take 4
          .frame ⟨first.toNat / 128 = 1, first.toNat / 16 % 8 ≠ 0, opcode,
            applyMask mask (body.take length)⟩ (body.drop length)
  | _ => .incomplete

/-- The header of an unmasked frame that ends its message. -/
def header (opcode : Opcode) (length : Nat) : List UInt8 :=
  let first := UInt8.ofNat (128 + opcode.toNat)
  if length < 126 then [first, UInt8.ofNat length]
  else if length < 65536 then first :: 126 :: bytesOfNat 2 length
  else first :: 127 :: bytesOfNat 8 length

/-! ## Frames to a client -/

/-- The code and the reason of a close frame. -/
structure CloseReason where
  code : Nat
  reason : String
  deriving DecidableEq, Repr

/-- A frame to a client. -/
inductive Outgoing where
  | text (s : String)
  | ping
  | pong (payload : List UInt8)
  | close (reason : Option CloseReason)
  deriving DecidableEq, Repr

namespace Outgoing

/-- The operation of a frame. -/
def opcode : Outgoing → Opcode
  | text _ => .text
  | ping => .ping
  | pong _ => .pong
  | close _ => .close

/-- What a frame carries. -/
def payload : Outgoing → List UInt8
  | text s => Text.Utf8.bytes s
  | ping => []
  | pong bs => bs
  | close none => []
  | close (some r) => bytesOfNat 2 r.code ++ Text.Utf8.bytes r.reason

/-- The bytes of a frame. -/
def encode (f : Outgoing) : List UInt8 := header f.opcode f.payload.length ++ f.payload

end Outgoing

/-! ## Frames from a client -/

/-- The bytes of a masked frame, as a client sends it. -/
def Frame.encodeMasked (mask : List UInt8) (f : Frame) : List UInt8 :=
  let n := f.payload.length
  let first := UInt8.ofNat ((if f.final then 128 else 0) + f.opcode.toNat)
  let lengthBytes :=
    if n < 126 then [UInt8.ofNat (128 + n)]
    else if n < 65536 then 254 :: bytesOfNat 2 n
    else 255 :: bytesOfNat 8 n
  first :: lengthBytes ++ mask ++ applyMask mask f.payload

end RoomHub.WebSocket
