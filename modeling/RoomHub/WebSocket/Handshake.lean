import RoomHub.Crypto.Sha1
import RoomHub.Http.Exchange
import RoomHub.Text.Base64Url

/-!
# The answer that opens a WebSocket connection

The server shows that it understood the request by hashing the client's key together with
a fixed text.
-/

namespace RoomHub.WebSocket.Handshake

/-- The text that every key is hashed with. -/
def magic : String := "258EAFA5-E914-47DA-95CA-C5AB0DC85B11"

/-- Base64 with the general alphabet and padding up to a multiple of four characters. -/
def base64 (bs : List UInt8) : String :=
  let cs := (Text.Base64Url.encode bs).map fun c =>
    if c = '-' then '+' else if c = '_' then '/' else c
  String.ofList (cs ++ List.replicate ((4 - cs.length % 4) % 4) '=')

/-- The answer to a key. -/
def accept (key : List UInt8) : String :=
  base64 (Crypto.Sha1.digest (key ++ Text.Utf8.bytes magic))

/-- The response that opens a connection, with further headers. -/
def response (req : Http.Request) (headers : List (String × String)) : Http.Response :=
  { status := 101
    headers := headers ++
      [("connection", "upgrade"), ("upgrade", "websocket"),
       ("sec-websocket-accept", accept ((req.header? "sec-websocket-key").getD []))]
    body := "" }

end RoomHub.WebSocket.Handshake
