import CycleSched.Text.Printable
import CycleSched.Text.Utf8

/-!
# Quoted text

A text is quoted by wrapping it in double quotes. Inside, a double quote and a backslash get a
backslash before them, the seven control characters with a letter name are written `\a`, `\b`,
`\f`, `\n`, `\r`, `\t`, `\v`, other ASCII controls and delete are written `\x` with two hex
digits, and other characters that are not printable are written `\u` with four hex digits or
`\U` with eight. Hex digits are lower case. A stray byte, which stands for a byte that starts no
well-formed UTF-8 character, is written `\x` with the two hex digits of its byte.
-/

namespace CycleSched.Text

/-- The `width` lower-case hex digits of `n`, padded with zeros on the left. -/
def hexDigits (width n : Nat) : List Char :=
  (List.range width).reverse.map fun i => Nat.digitChar (n / Nat.pow 16 i % 16)

/-- How one character is written inside quotes. -/
def quoteChar (c : Char) : List Char :=
  if c = '"' then ['\\', '"']
  else if c = '\\' then ['\\', '\\']
  else if isPrintable c then [c]
  else if let some b := Utf8.strayByte? c then '\\' :: 'x' :: hexDigits 2 b.toNat
  else if c.toNat = 7 then ['\\', 'a']
  else if c.toNat = 8 then ['\\', 'b']
  else if c = '\x0c' then ['\\', 'f']
  else if c = '\n' then ['\\', 'n']
  else if c = '\r' then ['\\', 'r']
  else if c = '\t' then ['\\', 't']
  else if c.toNat = 11 then ['\\', 'v']
  else if c.toNat < 0x20 || c.toNat = 0x7F then '\\' :: 'x' :: hexDigits 2 c.toNat
  else if c.toNat < 0x10000 then '\\' :: 'u' :: hexDigits 4 c.toNat
  else '\\' :: 'U' :: hexDigits 8 c.toNat

/-- The quoted form of a text. -/
def quote (s : String) : String :=
  String.ofList ('"' :: s.toList.flatMap quoteChar ++ ['"'])

/-- The quoted form of UTF-8 bytes that may be malformed. -/
def quoteBytes (bs : List UInt8) : String := quote (Utf8.ofBytes bs)

end CycleSched.Text
