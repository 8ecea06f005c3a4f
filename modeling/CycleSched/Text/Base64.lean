/-!
# Base64

Writing bytes in the standard base64 alphabet with `=` padding, and reading with `=` padding, as a binary scalar's text is read. Line
breaks anywhere in the text are ignored. The text falls into groups of four characters; only the
last group may end in one or two `=`, and nothing may follow it. Bits left over in a padded
group are dropped.
-/

namespace CycleSched.Text

/-- The six bits a base64 character stands for. -/
def base64Value (c : Char) : Option Nat :=
  if 'A' ≤ c && c ≤ 'Z' then some (c.toNat - 65)
  else if 'a' ≤ c && c ≤ 'z' then some (c.toNat - 71)
  else if '0' ≤ c && c ≤ '9' then some (c.toNat + 4)
  else if c = '+' then some 62
  else if c = '/' then some 63
  else none

/-- Reads groups of four base64 characters into bytes. -/
def base64Groups : List Char → Option (List UInt8)
  | [] => some []
  | [a, b, '=', '='] => do
    let x := (← base64Value a) * 64 + (← base64Value b)
    return [(x / 16).toUInt8]
  | [a, b, c, '='] => do
    let x := ((← base64Value a) * 64 + (← base64Value b)) * 64 + (← base64Value c)
    return [(x / 1024).toUInt8, (x / 4 % 256).toUInt8]
  | a :: b :: c :: d :: rest => do
    let x := (((← base64Value a) * 64 + (← base64Value b)) * 64 + (← base64Value c)) * 64 +
      (← base64Value d)
    return [(x / 65536).toUInt8, (x / 256 % 256).toUInt8, (x % 256).toUInt8] ++
      (← base64Groups rest)
  | _ => none

/-- The bytes a base64 text stands for, if it is well formed. -/
def decodeBase64 (s : String) : Option (List UInt8) :=
  base64Groups (s.toList.filter fun c => c != '\n' && c != '\r')

/-- The base64 character for six bits. -/
def base64Char (v : Nat) : Char :=
  if v < 26 then Char.ofNat (65 + v)
  else if v < 52 then Char.ofNat (71 + v)
  else if v < 62 then Char.ofNat (v - 4)
  else if v = 62 then '+'
  else '/'

/-- Writes bytes in groups of three as four base64 characters, padding the last group. -/
def base64Chars : List UInt8 → List Char
  | [] => []
  | [a] =>
    let x := a.toNat * 16
    [base64Char (x / 64), base64Char (x % 64), '=', '=']
  | [a, b] =>
    let x := (a.toNat * 256 + b.toNat) * 4
    [base64Char (x / 4096), base64Char (x / 64 % 64), base64Char (x % 64), '=']
  | a :: b :: c :: rest =>
    let x := (a.toNat * 256 + b.toNat) * 256 + c.toNat
    [base64Char (x / 262144), base64Char (x / 4096 % 64), base64Char (x / 64 % 64),
      base64Char (x % 64)] ++ base64Chars rest

/-- The base64 text of bytes. -/
def encodeBase64 (bs : List UInt8) : String := String.ofList (base64Chars bs)

end CycleSched.Text
