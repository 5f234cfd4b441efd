import Timetable.Text.Escaped

/-!
# Quoted texts

Messages and log lines show a text between quotation marks with its quotation marks, backslashes
and control characters escaped, so that the shown form always stands on one line.
-/

namespace Timetable.Text

/-- The digits of a number in lower-case base 16. -/
def hex (n : Nat) : List Char := Nat.toDigits 16 n

/-- A character by its number. -/
def numbered (c : Char) : List Char := ['\\', 'u', '\x7b'] ++ hex c.toNat ++ ['\x7d']

/-- The shown form of one character. -/
def quoteChar (c : Char) : List Char :=
  if c = '"' then ['\\', '"']
  else if c = '\\' then ['\\', '\\']
  else if c = '\t' then ['\\', 't']
  else if c = '\n' then ['\\', 'n']
  else if c = '\r' then ['\\', 'r']
  else if c.toNat = 0 then ['\\', '0']
  else if c.toNat < 0x20 ∨ c.toNat = 0x7f ∨ (0x80 ≤ c.toNat ∧ isEscaped c) then numbered c
  else [c]

/-- A text between quotation marks. -/
def quote (s : String) : String :=
  String.ofList ('"' :: s.toList.flatMap quoteChar ++ ['"'])

end Timetable.Text
