import RoomHub.Text.Hex
import RoomHub.Text.Split
import RoomHub.Text.Utf8

/-!
# Request targets

A target is a path, and after a question mark a query. Segments of the path are compared
as they are written; only what stands for a parameter has its percent escapes undone. A
query is a list of fields with `&` between them, in which a plus sign means a space.
-/

namespace RoomHub.Http

/-- The path of a target. -/
def pathOf (target : String) : List Char :=
  target.toList.takeWhile fun c => c ≠ '?' && c ≠ '#'

/-- The query of a target, empty when there is none. -/
def queryOf (target : String) : List Char :=
  let behind := (target.toList.takeWhile (· ≠ '#')).dropWhile (· ≠ '?')
  behind.drop 1

/-- The segments of a path, the first of which stands before the first slash. -/
def segments (path : List Char) : List String := (Text.split '/' path).map String.ofList

/-- The bytes of a text with its percent escapes undone; a percent sign without two
digits stands for itself. -/
def percentDecode : List Char → List UInt8
  | [] => []
  | '%' :: a :: b :: rest =>
    match Text.Hex.value? a, Text.Hex.value? b with
    | some high, some low => UInt8.ofNat (16 * high + low) :: percentDecode rest
    | _, _ => 0x25 :: percentDecode (a :: b :: rest)
  | c :: rest => Text.Utf8.bytes (String.singleton c) ++ percentDecode rest

/-- The text of a parameter in the path, when its bytes are UTF-8. -/
def parameter? (segment : String) : Option String :=
  Text.Utf8.text? (percentDecode segment.toList)

/-- A name or a value of a query field; bytes that are not UTF-8 become the replacement
character. -/
def fieldText (cs : List Char) : String :=
  Text.Utf8.replaced '\uFFFD' (percentDecode (cs.map fun c => if c = '+' then ' ' else c))

/-- The fields of a query, in order. -/
def queryFields (query : List Char) : List (String × String) :=
  ((Text.split '&' query).filter (!·.isEmpty)).map fun field =>
    (fieldText (field.takeWhile (· ≠ '=')), fieldText ((field.dropWhile (· ≠ '=')).drop 1))

/-- The value of a field that may occur once: `none` when it is repeated. -/
def queryField? (query : List Char) (name : String) : Option (Option String) :=
  match (queryFields query).filter (·.1 = name) with
  | [] => some none
  | [field] => some (some field.2)
  | _ => none

end RoomHub.Http
