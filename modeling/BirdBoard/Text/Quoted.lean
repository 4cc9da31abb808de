import BirdBoard.Text.Unprintable

/-! # Quoted texts

  A text between double quotes, as messages show it. The double quote and the backslash get a backslash in front, NUL,
  tab, newline and carriage return have short escapes, and every other unprintable character is shown by its code point
  in lower-case hexadecimal digits between braces.
-/

namespace BirdBoard.Text

/-- How a quoted text shows a character. -/
def quoteChar (c : Char) : List Char :=
  if c == '"' then ['\\', '"']
  else if c == '\\' then ['\\', '\\']
  else if c == '\x00' then ['\\', '0']
  else if c == '\t' then ['\\', 't']
  else if c == '\n' then ['\\', 'n']
  else if c == '\r' then ['\\', 'r']
  else if isUnprintable c then "\\u\x7b".toList ++ Nat.toDigits 16 c.toNat ++ ['\x7d']
  else [c]

/-- A text between double quotes. -/
def quoted (s : String) : String := String.ofList ('"' :: (s.toList.flatMap quoteChar ++ ['"']))

end BirdBoard.Text
