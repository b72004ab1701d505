/-!
# Texts on display

**A text on display** stands between quotes, and every character of it can be
seen: what has no shape of its own is written with a backslash, by name or by
number.
-/

namespace SmtSession.Text

/-- Ranges of the characters, beyond the first 128, that have no shape:
controls, spaces, marks of format and of direction, and private ones. -/
def shapeless : List (Nat × Nat) :=
  [(0x80, 0xA0), (0xAD, 0xAD), (0x600, 0x605), (0x61C, 0x61C), (0x6DD, 0x6DD), (0x70F, 0x70F),
    (0x1680, 0x1680), (0x180E, 0x180E), (0x2000, 0x200F), (0x2028, 0x202F), (0x205F, 0x206F),
    (0x3000, 0x3000), (0xE000, 0xF8FF), (0xFEFF, 0xFEFF), (0xFFF0, 0xFFFB), (0xFFFE, 0xFFFF),
    (0xE0000, 0xE00FF), (0xE01F0, 0x10FFFF)]

/-- Whether a character has a shape of its own. -/
def hasShape (c : Char) : Bool :=
  let n := c.toNat
  if n < 128 then 32 ≤ n && n ≠ 127
  else !shapeless.any fun (first, last) => first ≤ n && n ≤ last

/-- The last hexadecimal digits of a number. -/
def hexDigits : Nat → Nat → List Char
  | 0, _ => []
  | width + 1, n => hexDigits width (n / 16) ++ [Nat.digitChar (n % 16)]

/-- A character by its number. -/
def numbered (c : Char) : List Char :=
  let n := c.toNat
  if n < 0x100 then '\\' :: 'x' :: hexDigits 2 n
  else if n < 0x10000 then '\\' :: 'u' :: hexDigits 4 n
  else '\\' :: 'U' :: hexDigits 8 n

/-- A character between quotes. -/
def displayChar (quote c : Char) : List Char :=
  if c = quote ∨ c = '\\' then ['\\', c]
  else if c = '\n' then ['\\', 'n']
  else if c = '\r' then ['\\', 'r']
  else if c = '\t' then ['\\', 't']
  else if hasShape c then [c]
  else numbered c

/-- A text between quotes: single ones, unless it has these and no double
ones. -/
def display (s : String) : String :=
  let cs := s.toList
  let quote := if cs.contains '\'' ∧ !cs.contains '"' then '"' else '\''
  String.ofList (quote :: (cs.flatMap (displayChar quote) ++ [quote]))

end SmtSession.Text
