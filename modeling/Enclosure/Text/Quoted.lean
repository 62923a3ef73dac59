import Enclosure.Text.Invisible

/-!
# Quoted names

Messages show a name between double quotes. What would be mistaken for the end of the name, or
would not show, is written as an escape: quote and backslash by a backslash, the common controls by
their letter, all else that does not show as `\u{...}` with its code point in hexadecimal.
-/

namespace Enclosure.Quoted

/-- The code point of a character between braces. -/
def numbered (c : Char) : List Char :=
  ['\\', 'u', '\x7b'] ++ (Nat.toDigits 16 c.toNat) ++ ['\x7d']

/-- How one character is written inside the quotes. -/
def encodeChar (c : Char) : List Char :=
  if c = '"' then ['\\', '"']
  else if c = '\\' then ['\\', '\\']
  else if c = '\t' then ['\\', 't']
  else if c = '\n' then ['\\', 'n']
  else if c = '\r' then ['\\', 'r']
  else if c.toNat = 0 then ['\\', '0']
  else if c.toNat < 0x20 || c.toNat = 0x7F || isInvisible c then numbered c
  else [c]

/-- A name as messages show it. -/
def quote (s : String) : String :=
  String.ofList ('"' :: (s.toList.flatMap encodeChar ++ ['"']))

end Enclosure.Quoted
