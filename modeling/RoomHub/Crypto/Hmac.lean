import RoomHub.Crypto.Sha256

/-!
# Keyed message authentication

HMAC over SHA-256. Code that signs or checks takes the authenticator as a parameter, a
`Mac`: nothing it does rests on the hash function that is put in.
-/

namespace RoomHub.Crypto

/-- An authenticator: the tag of a message under a key. -/
abbrev Mac := (key message : List UInt8) → List UInt8

namespace Hmac

/-- The bytes of a block of SHA-256. -/
def blockSize : Nat := 64

/-- A key of one block: a longer key is hashed, a shorter one filled up with zeros. -/
def blockKey (key : List UInt8) : List UInt8 :=
  let k := if key.length > blockSize then Sha256.digest key else key
  k ++ List.replicate (blockSize - k.length) 0

/-- The tag of a message under a key. -/
def sha256 : Mac := fun key message =>
  let k := blockKey key
  let inner := Sha256.digest (k.map (· ^^^ 0x36) ++ message)
  Sha256.digest (k.map (· ^^^ 0x5c) ++ inner)

end Hmac

end RoomHub.Crypto
