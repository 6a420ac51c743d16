import RowQuery.Text.Printable

/-!
# Quoted texts

A text is quoted between double quotes. The quote, the backslash and four controls have a short
escape; any other character that does not show by itself is written by its code point in
hexadecimal, between braces.

## Main definitions

* `escape`: the characters that stand for one character.
* `quote`: the whole quoted text.
-/

namespace RowQuery.Text

/-- The escape of a character by its code point, in lower-case hexadecimal. -/
def pointEscape (c : Char) : List Char :=
  '\\' :: 'u' :: '\x7b' :: (Nat.toDigits 16 c.toNat ++ ['\x7d'])

/-- What stands for a character inside a quoted text. -/
def escape (c : Char) : List Char :=
  if c = '"' then ['\\', '"']
  else if c = '\\' then ['\\', '\\']
  else if c = '\n' then ['\\', 'n']
  else if c = '\r' then ['\\', 'r']
  else if c = '\t' then ['\\', 't']
  else if c = '\x00' then ['\\', '0']
  else if extendsGrapheme c || !isPrintable c then pointEscape c
  else [c]

/-- The text between double quotes, with what does not show escaped. -/
def quote (s : String) : String :=
  String.ofList ('"' :: (s.toList.flatMap escape ++ ['"']))

end RowQuery.Text
