/-!
# Reading UTF-8 bytes

Bytes are read as characters the way a text that may hold malformed UTF-8 is read: a byte that
does not start a well-formed character (overlong forms, surrogates and code points past
`U+10FFFF` included) reads as the replacement character `U+FFFD` and takes only that byte.

Text decoded from binary data need not be UTF-8 at all, and its malformed bytes must survive to
be shown byte by byte. Such a text is kept as a string in which each malformed byte `b` stands
as a *stray byte*: the private-use character `U+10DC00 + b`, with `b` between 0x80 and 0xFF. A
stray byte reads back as its one byte, and where only well-formed text may go it is shown as
`U+FFFD`.
-/

namespace CycleSched.Text.Utf8

/-- A continuation byte of UTF-8 within the given bounds. -/
def between (lo hi : UInt8) : Option UInt8 → Bool
  | some b => lo ≤ b && b ≤ hi
  | none => false

/-- Reads the character at the head of UTF-8 bytes, given its first byte, and the bytes after
it. A byte that does not start a well-formed character reads as `U+FFFD` and takes only that
byte. -/
def decodeChar (b : UInt8) (rest : List UInt8) : Char × List UInt8 :=
  let n := b.toNat
  let c1 := rest[0]?
  let c2 := rest[1]?
  let c3 := rest[2]?
  let tail (k : Nat) := (rest.take k).foldl (fun v x => v * 64 + (x.toNat % 64)) 0
  if n < 0x80 then (Char.ofNat n, rest)
  else if 0xC2 ≤ n && n ≤ 0xDF && between 0x80 0xBF c1 then
    (Char.ofNat ((n % 32) * 64 + tail 1), rest.drop 1)
  else if 0xE0 ≤ n && n ≤ 0xEF &&
      between (if n = 0xE0 then 0xA0 else 0x80) (if n = 0xED then 0x9F else 0xBF) c1 &&
      between 0x80 0xBF c2 then
    (Char.ofNat ((n % 16) * 4096 + tail 2), rest.drop 2)
  else if 0xF0 ≤ n && n ≤ 0xF4 &&
      between (if n = 0xF0 then 0x90 else 0x80) (if n = 0xF4 then 0x8F else 0xBF) c1 &&
      between 0x80 0xBF c2 && between 0x80 0xBF c3 then
    (Char.ofNat ((n % 8) * 262144 + tail 3), rest.drop 3)
  else ('\uFFFD', rest)

/-- The characters of UTF-8 bytes, each malformed byte read as `U+FFFD`. -/
def chars : Nat → List UInt8 → List Char
  | 0, _ => []
  | _, [] => []
  | fuel + 1, b :: rest =>
    let (c, rest) := decodeChar b rest
    c :: chars fuel rest

/-- UTF-8 bytes as text, each malformed byte read as `U+FFFD`. -/
def text (bs : List UInt8) : String := String.ofList (chars bs.length bs)

/-- The code point of stray byte 0, which itself is never stray. -/
def strayBase : Nat := 0x10DC00

/-- The character standing for the malformed byte `b`. -/
def stray (b : UInt8) : Char := Char.ofNat (strayBase + b.toNat)

/-- The byte a stray byte stands for, if the character is one. -/
def strayByte? (c : Char) : Option UInt8 :=
  if strayBase + 0x80 ≤ c.toNat && c.toNat ≤ strayBase + 0xFF then
    some (c.toNat - strayBase).toUInt8
  else none

/-- The character stands for a malformed byte. -/
def isStray (c : Char) : Bool := (strayByte? c).isSome

/-- The characters of UTF-8 bytes, each malformed byte kept as a stray byte. -/
def charsKeeping : Nat → List UInt8 → List Char
  | 0, _ => []
  | _, [] => []
  | fuel + 1, b :: rest =>
    let (c, rest') := decodeChar b rest
    -- a malformed byte takes no byte after it
    (if c = '\uFFFD' && rest'.length = rest.length then stray b else c) :: charsKeeping fuel rest'

/-- UTF-8 bytes as text, each malformed byte kept as a stray byte. -/
def ofBytes (bs : List UInt8) : String := String.ofList (charsKeeping bs.length bs)

/-- The bytes of a text: each character in UTF-8, each stray byte as its one byte. -/
def toBytes (s : String) : List UInt8 :=
  s.toList.flatMap fun c =>
    match strayByte? c with
    | some b => [b]
    | none => (String.singleton c).toUTF8.toList

/-- The text holds no stray byte, so its bytes are well-formed UTF-8. -/
def isWellFormed (s : String) : Bool := !s.toList.any isStray

/-- The text with each stray byte shown as `U+FFFD`. -/
def wellFormed (s : String) : String := String.ofList (s.toList.map fun c =>
  if isStray c then '\uFFFD' else c)

end CycleSched.Text.Utf8
