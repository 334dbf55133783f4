import RoomHub.Crypto.Sha256

/-!
# SHA-1

The hash function that the WebSocket handshake asks for. It is no protection against
anyone; it only shows that the answering side speaks the protocol.
-/

namespace RoomHub.Crypto.Sha1

/-- The five chaining words. -/
structure Chain where
  a : UInt32
  b : UInt32
  c : UInt32
  d : UInt32
  e : UInt32

/-- The chain before the first block. -/
def Chain.initial : Chain := ⟨0x67452301, 0xefcdab89, 0x98badcfe, 0x10325476, 0xc3d2e1f0⟩

/-- The 80 words of a block: its own sixteen and those that follow from them. -/
def schedule (block : List UInt32) : Array UInt32 :=
  (List.range 64).foldl
    (fun w i =>
      w.push (rotateLeft
        (w.getD (i + 13) 0 ^^^ w.getD (i + 8) 0 ^^^ w.getD (i + 2) 0 ^^^ w.getD i 0) 1))
    block.toArray

/-- The mixing function and the constant of a round. -/
def mix (i : Nat) (b c d : UInt32) : UInt32 × UInt32 :=
  if i < 20 then ((b &&& c) ||| (~~~b &&& d), 0x5a827999)
  else if i < 40 then (b ^^^ c ^^^ d, 0x6ed9eba1)
  else if i < 60 then ((b &&& c) ||| (b &&& d) ||| (c &&& d), 0x8f1bbcdc)
  else (b ^^^ c ^^^ d, 0xca62c1d6)

/-- Stirs one block into the chain. -/
def compress (s : Chain) (block : List UInt32) : Chain :=
  let w := schedule block
  let t := (List.range 80).foldl
    (fun (t : Chain) i =>
      let (f, k) := mix i t.b t.c t.d
      ⟨rotateLeft t.a 5 + f + t.e + k + w.getD i 0, t.a, rotateLeft t.b 30, t.c, t.d⟩) s
  ⟨s.a + t.a, s.b + t.b, s.c + t.c, s.d + t.d, s.e + t.e⟩

/-- The 20 bytes of a message's hash. -/
def digest (message : List UInt8) : List UInt8 :=
  let s := (blocks (wordsOfBytes (padded message))).foldl compress .initial
  [s.a, s.b, s.c, s.d, s.e].flatMap bytesOfWord

end RoomHub.Crypto.Sha1
