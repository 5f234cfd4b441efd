import Timetable.Text.Case
import Timetable.Text.Utf8

/-!
# Percent encoding

A byte can stand in an address as a percent sign and two digits in base 16. Which characters must
stand like this depends on the part of the address.
-/

namespace Timetable.Url

open Text

/-- An upper-case digit in base 16. -/
def hexUpper (n : Nat) : Char := (Nat.digitChar n).toUpper

/-- A byte as a percent sign and two digits. -/
def encodeByte (b : UInt8) : List Char := ['%', hexUpper (b.toNat / 16), hexUpper (b.toNat % 16)]

/-- Encodes every character of a text that must not stand for itself, and every one beyond ASCII. -/
def encode (special : Char → Bool) (s : List Char) : List Char :=
  s.flatMap fun c =>
    if 0x80 ≤ c.toNat || special c then (String.utf8EncodeChar c).flatMap encodeByte else [c]

/-- The bytes of a text in which percent signs followed by two digits stand for bytes. Any other
percent sign stands for itself. -/
def decodeBytes : List Char → List UInt8
  | [] => []
  | '%' :: a :: b :: rest =>
    match hexDigit? a, hexDigit? b with
    | some a, some b => (16 * a + b).toUInt8 :: decodeBytes rest
    | _, _ => String.utf8EncodeChar '%' ++ decodeBytes (a :: b :: rest)
  | c :: rest => String.utf8EncodeChar c ++ decodeBytes rest

/-- The text of which a text is the encoding, if its bytes are UTF-8. -/
def decode? (s : List Char) : Option String :=
  String.fromUTF8? (ByteArray.mk (decodeBytes s).toArray)

/-! ## Character sets -/

/-- Control characters of ASCII. -/
def isControl (c : Char) : Bool := c.toNat < 0x20 || c.toNat = 0x7f

/-- The characters that are encoded in a fragment. -/
def inFragment (c : Char) : Bool := isControl c || " \"<>`".toList.contains c

/-- The characters that are encoded in a path. -/
def inPath (c : Char) : Bool := inFragment c || "#?\x7b\x7d".toList.contains c

/-- The characters that are encoded in the name and password of a user. -/
def inUser (c : Char) : Bool := inPath c || "/:;=@[\\]^|".toList.contains c

/-- The characters that are encoded in a query. -/
def inQuery (c : Char) : Bool := isControl c || " \"#<>".toList.contains c

end Timetable.Url
