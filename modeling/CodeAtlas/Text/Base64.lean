/-
  File:      CodeAtlas/Text/Base64.lean
  Subject:   Bytes that are written as letters, six bits to a letter.

  * `Base64.digit?`: the six bits of a letter.
  * `Base64.decode?`: the bytes of a text. Characters that stand for no bits are
    passed over; equals signs that complete a group of four end the reading, and
    without them the last group must be complete.
-/
import CodeAtlas.Text.Basic

namespace CodeAtlas.Base64

/-- The six bits that a letter stands for. -/
def digit? (c : Char) : Option Nat :=
  if 'A' ≤ c && c ≤ 'Z' then some (c.toNat - 'A'.toNat)
  else if 'a' ≤ c && c ≤ 'z' then some (c.toNat - 'a'.toNat + 26)
  else if c.isDigit then some (c.toNat - '0'.toNat + 52)
  else if c == '+' then some 62
  else if c == '/' then some 63
  else none

/-- Reads the letters of a text after `place` letters of a group, which left over the bits
`left`; `pads` equals signs were the last to be read. -/
def decodeFrom : (place left pads : Nat) → Text → Option (List UInt8)
  | place, _, _, [] => if place == 0 then some [] else none
  | place, left, pads, c :: rest =>
    if c == '=' then
      if place < 2 then decodeFrom place left pads rest
      else if 4 ≤ place + pads + 1 then some []
      else decodeFrom place left (pads + 1) rest
    else
      match digit? c, place with
      | none, _ => decodeFrom place left pads rest
      | some bits, 0 => decodeFrom 1 bits 0 rest
      | some bits, 1 => write (left * 4 + bits / 16) (decodeFrom 2 (bits % 16) 0 rest)
      | some bits, 2 => write (left * 16 + bits / 4) (decodeFrom 3 (bits % 4) 0 rest)
      | some bits, _ => write (left * 64 + bits) (decodeFrom 0 0 0 rest)
where
  write (byte : Nat) (more : Option (List UInt8)) : Option (List UInt8) :=
    more.map (byte.toUInt8 :: ·)

/-- The bytes of a text in ASCII. -/
def decode? (text : Text) : Option (List UInt8) :=
  if text.all (·.toNat < 128) then decodeFrom 0 0 0 text else none

end CodeAtlas.Base64
