import Timetable.Url.Form
import Timetable.Url.Punycode

/-!
# Hosts

The host of an address is a name, four numbers of a byte, or eight numbers of two bytes in brackets.
A name whose last part is a number is read as the four numbers, in whatever form they are written.
-/

namespace Timetable.Url

open Text

/-- Why a text is no address. -/
inductive Error where
  | emptyHost
  | badName
  | badPort
  | badFour
  | badSix
  | badHostCharacter
  | noScheme
  /-- The address that a relative one should extend has no path of parts. -/
  | cannotExtend
  deriving DecidableEq, Repr

/-- The wording of an error. -/
def Error.message : Error → String
  | emptyHost => "empty host"
  | badName => "invalid international domain name"
  | badPort => "invalid port number"
  | badFour => "invalid IPv4 address"
  | badSix => "invalid IPv6 address"
  | badHostCharacter => "invalid domain character"
  | noScheme => "relative URL without a base"
  | cannotExtend => "relative URL with a cannot-be-a-base base"

/-- A host. -/
inductive Host where
  | name (s : String)
  | four (n : Nat)
  | six (pieces : List Nat)
  deriving DecidableEq, Repr

/-! ## Four numbers -/

/-- A number in base 10, in base 16 behind `0x`, or in base 8 behind a zero. -/
def readNumber (s : List Char) : Option Nat :=
  match s with
  | [] => none
  | ['0'] => some 0
  | '0' :: x :: digits =>
    if x = 'x' ∨ x = 'X' then digitsIn 16 digits else digitsIn 8 (x :: digits)
  | digits => digitsIn 10 digits
where
  digitsIn (base : Nat) (digits : List Char) : Option Nat := do
    let values ← digits.mapM hexDigit?
    if values.all (· < base) then some (ofDigits base values) else none

/-- The parts of a name between its points. A last part that is empty does not count. -/
def nameParts (s : List Char) : List (List Char) :=
  let parts := splitOn '.' s
  if 1 < parts.length ∧ parts.getLast? = some [] then parts.dropLast else parts

/-- Whether the last part of a name is a number. -/
def endsInNumber (s : List Char) : Bool :=
  match (nameParts s).getLast? with
  | some [] => false
  | some last => last.all Char.isDigit || (readNumber last).isSome
  | none => false

/-- The address that up to four numbers write: the last one fills the bytes that are left. -/
def joinFour (numbers : List Nat) : Option Nat :=
  match numbers.reverse with
  | [] => none
  | last :: before =>
    let room := Nat.pow 256 (4 - before.length)
    if 3 < before.length ∨ before.any (255 < ·) ∨ room ≤ last then none
    else some (before.reverse.foldl (fun n part => 256 * n + part) 0 * room + last)

/-- Reads four numbers. -/
def readFour (s : List Char) : Except Error Host :=
  match ((nameParts s).mapM readNumber).bind joinFour with
  | some n => .ok (.four n)
  | none => .error .badFour

/-! ## Eight numbers -/

/-- The two numbers of two bytes that four numbers of a byte make. Their forms are decimal. -/
def readTail (s : List Char) : Option (List Nat) := do
  let numbers ← (splitOn '.' s).mapM fun part =>
    if part.length = 0 ∨ 3 < part.length ∨ (1 < part.length ∧ part.head? = some '0') then none
    else (natural? part).filter (· ≤ 255)
  match numbers with
  | [a, b, c, d] => some [256 * a + b, 256 * c + d]
  | _ => none

/-- A number of two bytes in at most four digits. -/
def readPiece (s : List Char) : Option Nat := do
  if s.length = 0 ∨ 4 < s.length then none
  let values ← s.mapM hexDigit?
  some (ofDigits 16 values)

/-- Numbers of two bytes between colons; the last one may be a tail. -/
def readPieces (allowTail : Bool) (s : List Char) : Option (List Nat) :=
  if s.isEmpty then some []
  else go (splitOn ':' s)
where
  go : List (List Char) → Option (List Nat)
    | [] => some []
    | [last] =>
      if allowTail && last.contains '.' then readTail last else (readPiece last).map ([·])
    | part :: rest => do
      let piece ← readPiece part
      let pieces ← go rest
      some (piece :: pieces)

/-- The parts of a text before and behind the first two colons in a row. -/
def splitGap : List Char → Option (List Char × List Char)
  | ':' :: ':' :: rest => some ([], rest)
  | c :: rest => (splitGap rest).map fun (before, behind) => (c :: before, behind)
  | [] => none

/-- Reads eight numbers. Two colons in a row stand for as many zeros as are missing. -/
def readSix (s : List Char) : Except Error Host :=
  let pieces := match splitGap s with
    | none => (readPieces true s).filter (·.length = 8)
    | some (before, behind) => do
      let left ← readPieces false before
      let right ← readPieces true behind
      if 7 < left.length + right.length then none
      else some (left ++ List.replicate (8 - left.length - right.length) 0 ++ right)
  match pieces with
  | some pieces => .ok (.six pieces)
  | none => .error .badSix

/-! ## Reading and writing hosts -/

/-- The characters that no name holds. -/
def isForbidden (c : Char) : Bool := isControl c || " #%/:<>?@[\\]^|".toList.contains c

/-- The characters that no host of an unknown scheme holds. -/
def isForbiddenPlain (c : Char) : Bool :=
  c.toNat = 0 || "\t\n\r #/:<>?@[\\]^|".toList.contains c

/-- Reads a host in brackets, if it starts with one. -/
def readBrackets? (s : List Char) : Option (Except Error Host) :=
  match s with
  | '[' :: inner =>
    some (if inner.getLast? = some ']' then readSix inner.dropLast else .error .badSix)
  | _ => none

/-- Reads the host of a scheme whose hosts are names on the network. -/
def readHost (s : List Char) : Except Error Host :=
  match readBrackets? s with
  | some host => host
  | none =>
    match decode? s with
    | none => .error .badName
    | some name =>
      let lower := name.toList.map Char.toLower
      if lower.any isForbidden then .error .badName
      else
        let ascii := List.intercalate ['.'] ((splitOn '.' lower).map Punycode.encode)
        if ascii.isEmpty then .error .emptyHost
        else if endsInNumber ascii then readFour ascii
        else .ok (.name (String.ofList ascii))

/-- Reads the host of an unknown scheme: it is not interpreted. -/
def readPlainHost (s : List Char) : Except Error Host :=
  match readBrackets? s with
  | some host => host
  | none =>
    if s.any isForbiddenPlain then .error .badHostCharacter
    else .ok (.name (String.ofList (encode isControl s)))

/-- The digits of a number of two bytes. -/
def pieceText (n : Nat) : String := String.ofList (Nat.toDigits 16 n)

/-- The number of zeros at the start of a list. -/
def zerosAhead (pieces : List Nat) : Nat := (pieces.takeWhile (· = 0)).length

/-- The start and the length of the first longest run of zeros from position `i` on. -/
def longestZeros : Nat → List Nat → Nat × Nat
  | _, [] => (0, 0)
  | i, n :: rest =>
    let (start, length) := longestZeros (i + 1) rest
    let here := zerosAhead (n :: rest)
    if length ≤ here then (i, here) else (start, length)

/-- Eight numbers with the first longest run of zeros, if longer than one, left out. -/
def sixText (pieces : List Nat) : String :=
  let (start, length) := longestZeros 0 pieces
  if length < 2 then ":".intercalate (pieces.map pieceText)
  else
    ":".intercalate ((pieces.take start).map pieceText) ++ "::"
      ++ ":".intercalate ((pieces.drop (start + length)).map pieceText)

/-- The text of a host. -/
def Host.text : Host → String
  | name s => s
  | four n =>
    ".".intercalate ([n / 16777216, n / 65536 % 256, n / 256 % 256, n % 256].map toString)
  | six pieces => "[" ++ sixText pieces ++ "]"

end Timetable.Url
