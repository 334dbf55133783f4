import RoomHub.Text.Decimal
import RoomHub.Text.Hex
import RoomHub.Text.Utf8

/-!
# JSON texts

`Json` is what a JSON text spells: numbers as decimals, members in their order with
repetitions, and strings as texts, or `none` for a string whose escapes leave half of a
surrogate pair standing alone. Such strings, numbers beyond the range of a 64-bit float
and deep nesting are grammatical; `plain` says that a value holds none of them. A reader
that skips a member asks for grammar only, one that uses a value asks for `plain`.

`render` writes a value without spaces and `parse?` reads any text of the grammar, so
that reading what was written gives the value back.
-/

namespace RoomHub

/-- A number as a decimal: its digits as one number and, when a fraction or an exponent
is written, the power of ten that scales them. -/
structure Numeral where
  negative : Bool
  significand : Nat
  scale : Option Int
  deriving DecidableEq, Repr

namespace Numeral

/-- The numeral of an integer. -/
def ofInt (i : Int) : Numeral := ⟨decide (i < 0), i.natAbs, none⟩

/-- The integer that a numeral without fraction and exponent writes; a negative zero is
not an integer. -/
def toInt? (n : Numeral) : Option Int :=
  match n.scale with
  | some _ => none
  | none =>
    if n.negative then
      if n.significand = 0 then none else some (-n.significand)
    else some n.significand

/-- The least magnitude that rounds to infinity: half a unit above the largest finite
float of 64 bits. -/
def overflow : Nat := (1 <<< 1024) - (1 <<< 970)

/-- Whether the numeral rounds to a finite float of 64 bits. The power of ten that is
computed is never much longer than the digits that decide. -/
def finite (n : Numeral) : Bool :=
  match n.scale with
  | none => n.significand < overflow
  | some (.ofNat e) =>
    n.significand = 0 || (e ≤ 400 && n.significand * Nat.pow 10 e < overflow)
  | some (.negSucc e) =>
    n.significand / Nat.pow 10 (min (e + 1) (n.significand.log2 + 1)) < overflow

/-- The digits of a numeral, with a power of ten after an `e` when it is scaled. -/
def render (n : Numeral) : List Char :=
  (if n.negative then ['-'] else []) ++ Text.Decimal.ofNat n.significand ++
    match n.scale with
    | none => []
    | some e => 'e' :: Text.Decimal.ofInt e

end Numeral

/-- A JSON value as its text spells it. -/
inductive Json where
  | null
  | bool (b : Bool)
  | number (n : Numeral)
  | string (s : Option String)
  | array (items : List Json)
  | object (members : List (Option String × Json))
  deriving Repr, Inhabited

namespace Json

/-- A string value. -/
def text (s : String) : Json := .string (some s)

/-- An integer value. -/
def int (i : Int) : Json := .number (.ofInt i)

/-- An object with the given members in order. -/
def record (members : List (String × Json)) : Json :=
  .object (members.map fun m => (some m.1, m.2))

/-! ## Writing -/

/-- A character of a string as it is written: quotes, backslashes and control characters
are escaped, everything else stands for itself. -/
def escape (c : Char) : List Char :=
  if c = '"' then ['\\', '"']
  else if c = '\\' then ['\\', '\\']
  else if c = '\x08' then ['\\', 'b']
  else if c = '\t' then ['\\', 't']
  else if c = '\n' then ['\\', 'n']
  else if c = '\x0c' then ['\\', 'f']
  else if c = '\r' then ['\\', 'r']
  else if c.toNat < 0x20 then '\\' :: 'u' :: Text.Hex.ofNat 4 c.toNat
  else [c]

/-- A string with its quotes. A string that is no text is written as a surrogate that
stands alone. -/
def quote : Option String → List Char
  | some s => '"' :: (s.toList.flatMap escape ++ ['"'])
  | none => "\"\\ud800\"".toList

mutual

/-- The characters of a value, without spaces. -/
def chars : Json → List Char
  | null => "null".toList
  | bool true => "true".toList
  | bool false => "false".toList
  | number n => n.render
  | string s => quote s
  | array items => '[' :: (itemChars items ++ [']'])
  | object members => '{' :: (memberChars members ++ ['}'])

/-- The items of an array with commas between them. -/
def itemChars : List Json → List Char
  | [] => []
  | [v] => chars v
  | v :: vs => chars v ++ ',' :: itemChars vs

/-- The members of an object with commas between them. -/
def memberChars : List (Option String × Json) → List Char
  | [] => []
  | [(k, v)] => quote k ++ ':' :: chars v
  | (k, v) :: ms => quote k ++ ':' :: (chars v ++ ',' :: memberChars ms)

end

/-- The text of a value, without spaces. -/
def render (v : Json) : String := String.ofList v.chars

/-! ## Reading -/

/-- Whether a character may stand between two tokens. -/
def isSpace (c : Char) : Bool := c = ' ' || c = '\n' || c = '\r' || c = '\t'

/-- The text after the spaces at its start. -/
def skip (cs : List Char) : List Char := cs.dropWhile isSpace

/-- The character that a one-letter escape stands for. -/
def unescape? : Char → Option Char
  | '"' => some '"'
  | '\\' => some '\\'
  | '/' => some '/'
  | 'b' => some '\x08'
  | 'f' => some '\x0c'
  | 'n' => some '\n'
  | 'r' => some '\r'
  | 't' => some '\t'
  | _ => none

/-- Whether a code unit is the first half of a surrogate pair. -/
def isHigh (u : Nat) : Bool := 0xD800 ≤ u && u < 0xDC00

/-- Whether a code unit is the second half of a surrogate pair. -/
def isLow (u : Nat) : Bool := 0xDC00 ≤ u && u < 0xE000

/-- The character of a surrogate pair. -/
def ofPair (high low : Nat) : Char :=
  Char.ofNat (0x10000 + (high - 0xD800) * 0x400 + (low - 0xDC00))

/-- Puts a character before what is read of a string; `none` stands for a surrogate that
is no character, and spoils the whole string. -/
def prepend (c : Option Char) (r : Option (List Char) × List Char) :
    Option (List Char) × List Char :=
  match c with
  | some c => (r.1.map (c :: ·), r.2)
  | none => (none, r.2)

/-- Spoils a string when the first half of a surrogate pair was left waiting. -/
def settle (high : Option Nat) (r : Option (List Char) × List Char) :
    Option (List Char) × List Char :=
  if high.isSome then prepend none r else r

/-- Reads a string from behind its opening quote up to its closing one: its characters,
or `none` when a surrogate stands alone, and the text that follows. `high` is the first
half of a surrogate pair that was read just before and waits for the second. -/
def stringBody (high : Option Nat) :
    List Char → Option (Option (List Char) × List Char)
  | [] => none
  | '"' :: rest => some (settle high (some [], rest))
  | '\\' :: 'u' :: a :: b :: c :: d :: rest => do
    let unit ← Text.Hex.toNat? [a, b, c, d]
    if isHigh unit then
      return settle high (← stringBody (some unit) rest)
    else if isLow unit then
      return prepend (high.map (ofPair · unit)) (← stringBody none rest)
    else
      return settle high (prepend (some (Char.ofNat unit)) (← stringBody none rest))
  | '\\' :: e :: rest => do
    let c ← unescape? e
    return settle high (prepend (some c) (← stringBody none rest))
  | c :: rest =>
    if c.toNat < 0x20 then none
    else return settle high (prepend (some c) (← stringBody none rest))

/-- Reads a string that begins with its opening quote. -/
def quoted : List Char → Option (Option String × List Char)
  | '"' :: rest => (stringBody none rest).map fun r => (r.1.map String.ofList, r.2)
  | _ => none

/-- Reads the digits of an exponent behind its `e`. -/
def exponent (cs : List Char) : Option (Int × List Char) :=
  let (negative, rest) := match cs with
    | '-' :: rest => (true, rest)
    | '+' :: rest => (false, rest)
    | _ => (false, cs)
  let ds := rest.takeWhile Text.Decimal.isDigit
  if ds.isEmpty then none
  else
    let n : Int := Text.Decimal.toNat ds
    some (if negative then -n else n, rest.dropWhile Text.Decimal.isDigit)

/-- Reads the digits of a fraction behind its point. -/
def fraction (cs : List Char) : Option (List Char × List Char) :=
  let ds := cs.takeWhile Text.Decimal.isDigit
  if ds.isEmpty then none else some (ds, cs.dropWhile Text.Decimal.isDigit)

/-- Reads a number without its sign: digits without a leading zero, then a fraction and
an exponent if they are there. -/
def magnitude (negative : Bool) (cs : List Char) : Option (Numeral × List Char) := do
  let whole := cs.takeWhile Text.Decimal.isDigit
  let rest := cs.dropWhile Text.Decimal.isDigit
  if whole.isEmpty ∨ (whole.head? = some '0' ∧ whole.length > 1) then none
  else
    let (places, rest) ← match rest with
      | '.' :: after => (fraction after).map fun r => (some r.1, r.2)
      | _ => some (none, rest)
    let (power, rest) ← match rest with
      | 'e' :: after => (exponent after).map fun r => (some r.1, r.2)
      | 'E' :: after => (exponent after).map fun r => (some r.1, r.2)
      | _ => some (none, rest)
    let digits := whole ++ places.getD []
    let scale : Option Int := match places, power with
      | none, none => none
      | _, _ => some (power.getD 0 - (places.getD []).length)
    return (⟨negative, Text.Decimal.toNat digits, scale⟩, rest)

/-- Reads a number. -/
def numeral : List Char → Option (Numeral × List Char)
  | '-' :: rest => magnitude true rest
  | cs => magnitude false cs

mutual

/-- Reads a value at the start of a text, after spaces. The fuel bounds the nesting and
the number of items; the length of the text is always enough. -/
def value : Nat → List Char → Option (Json × List Char)
  | 0, _ => none
  | fuel + 1, cs =>
    match skip cs with
    | 'n' :: 'u' :: 'l' :: 'l' :: rest => some (.null, rest)
    | 't' :: 'r' :: 'u' :: 'e' :: rest => some (.bool true, rest)
    | 'f' :: 'a' :: 'l' :: 's' :: 'e' :: rest => some (.bool false, rest)
    | '"' :: rest => (quoted ('"' :: rest)).map fun r => (.string r.1, r.2)
    | '[' :: rest =>
      match skip rest with
      | ']' :: rest' => some (.array [], rest')
      | rest' => (items fuel rest').map fun r => (.array r.1, r.2)
    | '{' :: rest =>
      match skip rest with
      | '}' :: rest' => some (.object [], rest')
      | rest' => (members fuel rest').map fun r => (.object r.1, r.2)
    | rest => (numeral rest).map fun r => (.number r.1, r.2)

/-- Reads the items of an array that has at least one, and its closing bracket. -/
def items : Nat → List Char → Option (List Json × List Char)
  | 0, _ => none
  | fuel + 1, cs => do
    let (v, rest) ← value fuel cs
    match skip rest with
    | ',' :: rest' =>
      let (vs, after) ← items fuel rest'
      return (v :: vs, after)
    | ']' :: rest' => return ([v], rest')
    | _ => none

/-- Reads the members of an object that has at least one, and its closing brace. -/
def members : Nat → List Char → Option (List (Option String × Json) × List Char)
  | 0, _ => none
  | fuel + 1, cs => do
    let (k, rest) ← quoted (skip cs)
    match skip rest with
    | ':' :: rest =>
      let (v, rest) ← value fuel rest
      match skip rest with
      | ',' :: rest' =>
        let (ms, after) ← members fuel rest'
        return ((k, v) :: ms, after)
      | '}' :: rest' => return ([(k, v)], rest')
      | _ => none
    | _ => none

end

/-- Reads a text that is one value with nothing but spaces around it. -/
def parseChars? (cs : List Char) : Option Json := do
  let (v, rest) ← value (cs.length + 1) cs
  if (skip rest).isEmpty then return v else none

/-- Reads a text that is one value with nothing but spaces around it. -/
def parse? (s : String) : Option Json := parseChars? s.toList

/-! ## Values that can be used -/

mutual

/-- How many containers are nested in a value at most. -/
def depth : Json → Nat
  | array items => itemsDepth items + 1
  | object members => membersDepth members + 1
  | _ => 0

/-- The greatest depth of a list of items. -/
def itemsDepth : List Json → Nat
  | [] => 0
  | v :: vs => max (depth v) (itemsDepth vs)

/-- The greatest depth of the values of members. -/
def membersDepth : List (Option String × Json) → Nat
  | [] => 0
  | (_, v) :: ms => max (depth v) (membersDepth ms)

end

mutual

/-- Whether every string is a text and every number is finite. -/
def sound : Json → Bool
  | number n => n.finite
  | string s => s.isSome
  | array items => itemsSound items
  | object members => membersSound members
  | _ => true

/-- Whether every item is sound. -/
def itemsSound : List Json → Bool
  | [] => true
  | v :: vs => sound v && itemsSound vs

/-- Whether every key and value is sound. -/
def membersSound : List (Option String × Json) → Bool
  | [] => true
  | (k, v) :: ms => k.isSome && sound v && membersSound ms

end

/-- How many containers may be nested in a value that is used. -/
def depthLimit : Nat := 127

/-- A value that can be used as a whole: not too deep, all strings texts, all numbers in
range. -/
def plain (v : Json) : Bool := v.depth ≤ depthLimit && v.sound

/-! ## Texts given as bytes -/

mutual

/-- Turns every string that holds the character into one that is no text. -/
def spoil (mark : Char) : Json → Json
  | string s => string (s.filter fun s => !s.toList.contains mark)
  | array items => array (spoilItems mark items)
  | object members => object (spoilMembers mark members)
  | v => v

/-- `spoil` on every item. -/
def spoilItems (mark : Char) : List Json → List Json
  | [] => []
  | v :: vs => spoil mark v :: spoilItems mark vs

/-- `spoil` on every key and value. -/
def spoilMembers (mark : Char) : List (Option String × Json) → List (Option String × Json)
  | [] => []
  | (k, v) :: ms =>
    (k.filter fun k => !k.toList.contains mark, spoil mark v) :: spoilMembers mark ms

end

/-- A character that does not occur in a list and is no token of the grammar: one of the
private use area, which begins at U+E000. -/
def absentChar (cs : List Char) : Char :=
  ((List.range 6400).map fun i => Char.ofNat (0xE000 + i)).find? (!cs.contains ·)
    |>.getD (Char.ofNat 0x10FFFF)

/-- The characters that stand in a text or are written there as an escape of four digits. -/
def mentioned : List Char → List Char
  | '\\' :: 'u' :: a :: b :: c :: d :: rest =>
    ((Text.Hex.toNat? [a, b, c, d]).map Char.ofNat).toList ++ mentioned rest
  | '\\' :: c :: rest => c :: mentioned rest
  | c :: rest => c :: mentioned rest
  | [] => []

/-- A character that no string of a text holds, to mark strings with. -/
def markFor (bs : List UInt8) : Char :=
  absentChar (mentioned ((Text.Utf8.units .none bs).filterMap id))

/-- Reads the bytes of a text. An ill-formed run of bytes may stand inside a string only,
and makes it one that is no text. -/
def parseBytes? (bs : List UInt8) : Option Json :=
  match Text.Utf8.text? bs with
  | some s => parse? s
  | none => (parse? (Text.Utf8.replaced (markFor bs) bs)).map (spoil (markFor bs))

/-! ## Reading records -/

/-- The text of a string value. -/
def asString? : Json → Option String
  | string s => s
  | _ => none

/-- The name of a variant: a text, or an object that has the name for its one member, with
`null` in it. -/
def asVariant? : Json → Option String
  | string name => name
  | object [(name, null)] => name
  | _ => none

/-- The value of an integer numeral of 64 bits. -/
def asInt64? : Json → Option Int
  | number n => n.toInt?.filter fun i => Int64.minValue.toInt ≤ i && i ≤ Int64.maxValue.toInt
  | _ => none

/-- The items of an array, each read by `f`. -/
def asList? {α : Type} (f : Json → Option α) : Json → Option (List α)
  | array items => items.mapM f
  | _ => none

/-- A value that may also be `null`. -/
def asOption? {α : Type} (f : Json → Option α) : Json → Option (Option α)
  | null => some none
  | v => (f v).map some

/-- The members of one name, in order. -/
def membersNamed (name : String) (members : List (Option String × Json)) : List Json :=
  (members.filter fun m => m.1 = some name).map (·.2)

/-- The value of a field in an object: `some none` when it is missing, `none` when it is
repeated. -/
def member? (members : List (Option String × Json)) (name : String) :
    Option (Option Json) :=
  match membersNamed name members with
  | [] => some none
  | [v] => some (some v)
  | _ => none

/-- The fields of a record by name, from an object whose keys are all texts and repeat
no field, or from an array that lists at most all the fields in order. A missing field is
`none`; members of other names are skipped. -/
def fields? (names : List String) : Json → Option (List (Option Json))
  | object members =>
    if members.all (·.1.isSome) then names.mapM (member? members) else none
  | array items =>
    if items.length ≤ names.length then
      some (items.map some ++ List.replicate (names.length - items.length) none)
    else none
  | _ => none

/-- Whether an array lists as many items as there are names; what is no array lists them
all in its own way. -/
def listsAll (names : List String) : Json → Bool
  | array items => items.length = names.length
  | _ => true

end Json

end RoomHub
