/-!
# Blank characters and substrings

**Blank** is what is trimmed from the two ends of a text: the ASCII controls
TAB to CR and FS to US, the space, and the spaces and line breaks that
Unicode adds to them. U+FEFF is not one of them.

Layout between tokens is another, smaller set: see `SmtSession.Token`.
-/

namespace SmtSession.Text

/-- The ranges of blank characters, both ends included. -/
def blankRanges : List (Nat × Nat) :=
  [(0x09, 0x0D), (0x1C, 0x20), (0x85, 0x85), (0xA0, 0xA0), (0x1680, 0x1680), (0x2000, 0x200A),
   (0x2028, 0x2029), (0x202F, 0x202F), (0x205F, 0x205F), (0x3000, 0x3000)]

/-- A character of `blankRanges`. -/
def isBlank (c : Char) : Bool :=
  blankRanges.any fun (first, last) => first ≤ c.toNat && c.toNat ≤ last

/-- The list without the longest run of `p` at its end. -/
def dropTrailing (p : α → Bool) : List α → List α
  | [] => []
  | a :: as =>
    match dropTrailing p as with
    | [] => if p a then [] else [a]
    | b :: bs => a :: b :: bs

/-- The text without blanks at its end. -/
def stripRight (s : String) : String :=
  String.ofList (dropTrailing isBlank s.toList)

/-- The text without blanks at either end. -/
def strip (s : String) : String :=
  String.ofList (dropTrailing isBlank (s.toList.dropWhile isBlank))

/-- Whether `needle` occurs somewhere in the list, as one piece. -/
def occursIn (needle : List Char) : List Char → Bool
  | [] => needle.isEmpty
  | c :: cs => needle.isPrefixOf (c :: cs) || occursIn needle cs

/-- Whether the text `needle` occurs in `s`. -/
def contains (s needle : String) : Bool :=
  occursIn needle.toList s.toList

/-- The text without `ending`, when it ends so. -/
def dropEnding? (ending s : String) : Option String :=
  let n := s.toList.length - ending.toList.length
  if ending.toList.isSuffixOf s.toList then some (String.ofList (s.toList.take n)) else none

/-- The text behind `start`, when it starts so. -/
def dropStart? (start s : String) : Option String :=
  if start.toList.isPrefixOf s.toList then
    some (String.ofList (s.toList.drop start.toList.length))
  else
    none

end SmtSession.Text
