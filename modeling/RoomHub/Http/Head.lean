import RoomHub.Http.Exchange
import RoomHub.Http.Target

/-!
# Requests and responses as bytes

The head of a request is a request line, header lines, and an empty line. `Head.read`
finds it at the front of the bytes from a client, or says that more bytes are needed, that
there are too many of them, or that they are no request. A response is the same the other
way round, with its body behind the head.
-/

namespace RoomHub.Http

/-- What stands at the front of the bytes from a client. -/
inductive Head where
  | incomplete
  | tooLong
  | malformed
  | request (req : Request) (rest : List UInt8)
  deriving DecidableEq, Repr

namespace Head

/-- The most bytes that a head may have. -/
def limit : Nat := 65536

/-- The first line, and what follows it. A carriage return before the line feed belongs
to the end of the line. -/
def line? : List UInt8 → Option (List UInt8 × List UInt8)
  | [] => none
  | 0x0A :: rest => some ([], rest)
  | 0x0D :: 0x0A :: rest => some ([], rest)
  | b :: rest => (line? rest).map fun (l, after) => (b :: l, after)

/-- The lines up to the first empty one, and what follows that. Every line takes a byte,
so their number bounds the fuel that is needed. -/
def linesWithin : Nat → List UInt8 → Option (List (List UInt8) × List UInt8)
  | 0, _ => none
  | fuel + 1, bs =>
    match line? bs with
    | none => none
    | some ([], rest) => some ([], rest)
    | some (l, rest) => (linesWithin fuel rest).map fun (ls, after) => (l :: ls, after)

/-- The lines up to the first empty one, and what follows that. -/
def lines? (bs : List UInt8) : Option (List (List UInt8) × List UInt8) :=
  linesWithin (bs.length + 1) bs

/-- The method and the target that a request line names. -/
def requestLine? (l : List UInt8) : Option (String × String) := do
  let text ← Request.visibleText? l
  match Text.split ' ' text.toList with
  | [method, '/' :: target, 'H' :: 'T' :: 'T' :: 'P' :: '/' :: '1' :: '.' :: _] =>
    if method.isEmpty then none
    else some (String.ofList method, String.ofList ('/' :: target))
  | _ => none

/-- Whether a byte is a space or a tab. -/
def isBlank (b : UInt8) : Bool := b = 0x20 || b = 0x09

/-- The name and the value of a header line. -/
def headerLine? (l : List UInt8) : Option (String × List UInt8) := do
  let name ← Request.visibleText? (l.takeWhile (· ≠ 0x3A))
  let value := (l.dropWhile (· ≠ 0x3A)).drop 1
  if name.isEmpty ∨ !l.contains 0x3A then none
  else some (name, ((value.dropWhile isBlank).reverse.dropWhile isBlank).reverse)

/-- The request that lines make. -/
def ofLines? : List (List UInt8) → Option Request
  | [] => none
  | first :: others => do
    let (method, target) ← requestLine? first
    return ⟨method, target, ← others.mapM headerLine?⟩

/-- Reads the head at the front of the bytes from a client. -/
def read (bs : List UInt8) : Head :=
  match lines? bs with
  | none => if limit < bs.length then .tooLong else .incomplete
  | some (ls, rest) =>
    match ofLines? ls with
    | some req => .request req rest
    | none => .malformed

end Head

namespace Response

/-- The words that go with a status. -/
def statusText : Nat → String
  | 101 => "Switching Protocols"
  | 200 => "OK"
  | 400 => "Bad Request"
  | 401 => "Unauthorized"
  | 403 => "Forbidden"
  | 404 => "Not Found"
  | 405 => "Method Not Allowed"
  | 426 => "Upgrade Required"
  | 431 => "Request Header Fields Too Large"
  | _ => "Internal Server Error"

/-- The response as the last one of its connection. The length of a body is stated; where
there is no body, the end of the connection says so. -/
def last (r : Response) : Response :=
  let length := (Text.Utf8.bytes r.body).length
  r.withHeaders
    ((if length = 0 then [] else [("content-length", toString length)]) ++
      [("connection", "close")])

/-- The bytes of a response. -/
def encode (r : Response) : List UInt8 :=
  let fields := r.headers.map fun (name, value) => s!"{name}: {value}\r\n"
  Text.Utf8.bytes
    (s!"HTTP/1.1 {r.status} {statusText r.status}\r\n" ++ String.join fields ++ "\r\n" ++ r.body)

end Response

end RoomHub.Http
