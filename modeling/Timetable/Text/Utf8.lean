/-!
# Text from bytes

Bytes are read as UTF-8. Every longest beginning of a character that is not completed, and every
byte that begins none, is read as the replacement character, so reading never fails.
-/

namespace Timetable.Text

/-- What has been read of a character of several bytes. -/
structure Partial where
  value : Nat
  /-- The number of bytes that are still to come. -/
  missing : Nat
  /-- The least value of the next byte. -/
  low : Nat
  /-- The greatest value of the next byte. -/
  high : Nat

/-- What a byte begins: a character of its own, or one of several bytes. The bounds for the second
byte rule out surrogates, numbers that are too large, and forms that are longer than needed. -/
inductive Beginning where
  | whole (c : Char)
  | more (rest : Partial)
  | nothing

/-- What a byte begins. -/
def beginning (b : Nat) : Beginning :=
  if b < 0x80 then .whole (Char.ofNat b)
  else if b < 0xc2 then .nothing
  else if b < 0xe0 then .more ⟨b - 0xc0, 1, 0x80, 0xbf⟩
  else if b = 0xe0 then .more ⟨0, 2, 0xa0, 0xbf⟩
  else if b = 0xed then .more ⟨0xd, 2, 0x80, 0x9f⟩
  else if b < 0xf0 then .more ⟨b - 0xe0, 2, 0x80, 0xbf⟩
  else if b = 0xf0 then .more ⟨0, 3, 0x90, 0xbf⟩
  else if b < 0xf4 then .more ⟨b - 0xf0, 3, 0x80, 0xbf⟩
  else if b = 0xf4 then .more ⟨4, 3, 0x80, 0x8f⟩
  else .nothing

/-- Stands for what is no character. -/
def replacement : Char := '\ufffd'

/-- Reads bytes behind what has been read of a character. -/
def decodeFrom : Option Partial → List UInt8 → List Char
  | none, [] => []
  | some _, [] => [replacement]
  | pending, b :: rest =>
    match pending with
    | some p =>
      if p.low ≤ b.toNat ∧ b.toNat ≤ p.high then
        let value := p.value * 64 + (b.toNat - 0x80)
        if p.missing ≤ 1 then Char.ofNat value :: decodeFrom none rest
        else decodeFrom (some ⟨value, p.missing - 1, 0x80, 0xbf⟩) rest
      else
        match beginning b.toNat with
        | .whole c => replacement :: c :: decodeFrom none rest
        | .more p => replacement :: decodeFrom (some p) rest
        | .nothing => replacement :: replacement :: decodeFrom none rest
    | none =>
      match beginning b.toNat with
      | .whole c => c :: decodeFrom none rest
      | .more p => decodeFrom (some p) rest
      | .nothing => replacement :: decodeFrom none rest

/-- The text of some bytes. -/
def ofBytes (bytes : List UInt8) : String := String.ofList (decodeFrom none bytes)

end Timetable.Text
