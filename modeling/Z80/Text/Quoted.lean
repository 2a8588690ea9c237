import Z80.Text.GraphemeExtend
import Z80.Text.Unprintable

/-!
# Quoted text

A quoted text stands between double quotes. Inside, quotes and backslashes get a backslash, the
common control characters have short escapes, and every other character that does not print, or
that would attach to the one before it, is written by its code point.
-/

namespace Z80.Text

/-- The lower-case hexadecimal digits of a number, without padding. -/
def codeDigits (value : Nat) : List Char := Nat.toDigits 16 value

/-- How one character is written inside quotes. -/
def escaped (char : Char) : List Char :=
  if char = '\x00' then ['\\', '0']
  else if char = '\t' then ['\\', 't']
  else if char = '\n' then ['\\', 'n']
  else if char = '\r' then ['\\', 'r']
  else if char = '"' then ['\\', '"']
  else if char = '\\' then ['\\', '\\']
  else if isUnprintable char || extendsGrapheme char then
    ['\\', 'u', '\x7b'] ++ codeDigits char.toNat ++ ['\x7d']
  else [char]

/-- The text between double quotes. -/
def quoted (text : String) : String :=
  String.ofList ('"' :: text.toList.flatMap escaped ++ ['"'])

end Z80.Text
