import Timetable.Url.Percent

/-!
# Forms

The query of an address holds pairs of a name and a value. A blank is written as a plus sign.
-/

namespace Timetable.Url

open Text

/-- Whether a character stands for itself in a form. -/
def isFormPlain (c : Char) : Bool := c.isAlphanum || "*-._".toList.contains c

/-- The form of one name or value. -/
def formText (s : String) : List Char :=
  s.toList.flatMap fun c =>
    if c = ' ' then ['+']
    else if isFormPlain c then [c]
    else (String.utf8EncodeChar c).flatMap encodeByte

/-- A pair of a form. -/
def formPair (name value : String) : String :=
  String.ofList (formText name ++ '=' :: formText value)

/-- The name or value that a part of a form stands for. -/
def readFormText (s : List Char) : String :=
  ofBytes (decodeBytes (s.map fun c => if c = '+' then ' ' else c))

/-- The parts of a text between the separators. -/
def splitOn (separator : Char) : List Char → List (List Char)
  | [] => [[]]
  | c :: rest =>
    if c = separator then [] :: splitOn separator rest
    else
      match splitOn separator rest with
      | [] => [[c]]
      | part :: parts => (c :: part) :: parts

/-- The pair that a part of a form stands for. Without an equals sign the value is empty. -/
def readFormPair (s : List Char) : String × String :=
  (readFormText (s.takeWhile (· ≠ '=')), readFormText ((s.dropWhile (· ≠ '=')).drop 1))

/-- The pairs of a form, in order. -/
def readForm (s : List Char) : List (String × String) :=
  ((splitOn '&' s).filter (!·.isEmpty)).map readFormPair

end Timetable.Url
