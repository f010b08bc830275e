/-
  File:      CodeAtlas/Text/Quoted.lean
  Subject:   Texts between quotes, as they are shown inside other values.

  * `quoted`: single quotes, unless the text holds a single quote and no double
    quote. Backslashes, the quote itself and characters that cannot be shown are
    escaped.
-/
import CodeAtlas.Text.Half
import CodeAtlas.Text.Printable

namespace CodeAtlas.Text

/-- A number in hexadecimal digits, with zeros before it up to a width. -/
def hexNumber (width n : Nat) : Text :=
  let digits := Nat.toDigits 16 n
  List.replicate (width - digits.length) '0' ++ digits

/-- What cannot be shown, by its number. -/
def numbered (code : Nat) : Text :=
  if code < 0x100 then "\\x" ++ hexNumber 2 code
  else if code < 0x10000 then "\\u" ++ hexNumber 4 code
  else "\\U" ++ hexNumber 8 code

/-- A text in which only the characters of ASCII stand for themselves. -/
def ascii (text : Text) : Text :=
  (codes text).flatMap fun code => if code < 128 then [Char.ofNat code] else numbered code

/-- A character between quotes. -/
def quotedChar (quote c : Char) : Text :=
  if c == '\\' || c == quote then ['\\', c]
  else if c == '\n' then ['\\', 'n']
  else if c == '\r' then ['\\', 'r']
  else if c == '\t' then ['\\', 't']
  else if isPrintable c then [c]
  else numbered c.toNat

/-- A text between quotes. Half a character is not shown. -/
def quoted (text : Text) : Text :=
  let quote := if text.contains '\'' && !text.contains '"' then '"' else '\''
  let shown := (characters text).flatMap fun
    | [c] => quotedChar quote c
    | half => numbered (code half)
  [quote] ++ shown ++ [quote]

end CodeAtlas.Text
