/-!
# Sources and positions

**A source** is a text with an optional location, and its lines. A line ends
at a line feed, at a carriage return, or at the two together, which count as
one terminator.

**A position** is the range of offsets from `start` up to and without `stop`;
offsets count characters. With a source it can be described by line and
column, and underlined.
-/

namespace SmtSession

/-- A text, and where it comes from. -/
structure Source where
  /-- The whole text. -/
  text : String
  /-- The name shown in positions, when there is one. -/
  location : Option String := none
  deriving DecidableEq, Inhabited

namespace Source

/-- A character that ends a line. -/
def isLineEnd (c : Char) : Bool :=
  c = '\n' || c = '\r'

/-- The offsets of the lines that start inside or at the end of `cs`, whose
own first character has the given offset. The line that is running at that
offset is not listed. -/
def startsAfter (offset : Nat) : List Char → List Nat
  | [] => []
  | '\r' :: '\n' :: cs => (offset + 2) :: startsAfter (offset + 2) cs
  | c :: cs =>
    if isLineEnd c then (offset + 1) :: startsAfter (offset + 1) cs
    else startsAfter (offset + 1) cs

/-- The offsets at which the lines of the source start, in order. -/
def lineStarts (s : Source) : List Nat :=
  0 :: startsAfter 0 s.text.toList

/-- The number, from 1, of the line that holds the offset. -/
def lineNumber (s : Source) (offset : Nat) : Nat :=
  s.lineStarts.countP (· ≤ offset)

/-- The offset at which the line that holds the offset starts. -/
def lineBeginning (s : Source) (offset : Nat) : Nat :=
  (s.lineStarts.takeWhile (· ≤ offset)).getLastD 0

/-- The line that holds the offset, without its terminator. -/
def lineText (s : Source) (offset : Nat) : String :=
  String.ofList ((s.text.toList.drop (s.lineBeginning offset)).takeWhile fun c => !isLineEnd c)

/-- The location, or a stand-in when there is none or an empty one. -/
def displayName (s : Source) : String :=
  match s.location with
  | none => "<input>"
  | some name => if name.isEmpty then "<input>" else name

/-- How far the offset is from the start of its line. -/
def indent (s : Source) (offset : Nat) : Nat :=
  offset - s.lineBeginning offset

/-- The number, from 1, of the character at the offset in its line. -/
def column (s : Source) (offset : Nat) : Nat :=
  s.indent offset + 1

/-- Location, line and column of the offset. -/
def place (s : Source) (offset : Nat) : String :=
  s.displayName ++ ":" ++ toString (s.lineNumber offset) ++ ":" ++ toString (s.column offset)

/-- The number of carets under the line: the part of the range that lies on
the line of its first character, and one at least. The range may be empty, and
may stop before it starts. -/
def markerWidth (s : Source) (start : Nat) (stop : Int) : Nat :=
  (max 1 (min (stop - start) ((s.lineText start).length - s.indent start))).toNat

/-- The row under the line: blanks up to the first character, then carets. -/
def markerRow (s : Source) (start : Nat) (stop : Int) : String :=
  String.ofList
    (List.replicate (s.indent start) ' ' ++ List.replicate (s.markerWidth start stop) '^')

/-- The place of a range, the line of its first character, and the row that
marks the range in it. -/
def describe (s : Source) (start : Nat) (stop : Int) : String :=
  s.place start ++ "\n" ++ s.lineText start ++ "\n" ++ s.markerRow start stop

/-- The text with every line terminator written as one line feed. -/
def unifyLineEnds : List Char → List Char
  | [] => []
  | '\r' :: '\n' :: cs => '\n' :: unifyLineEnds cs
  | '\r' :: cs => '\n' :: unifyLineEnds cs
  | c :: cs => c :: unifyLineEnds cs

/-- The source that a file holds: its lines all end in a line feed, and its
path is the location. -/
def ofFile (path content : String) : Source :=
  { text := String.ofList (unifyLineEnds content.toList), location := some path }

end Source

/-- A range of offsets, and the source it is a range of. -/
structure Pos where
  /-- The offset of the first character. -/
  start : Nat
  /-- The offset behind the last character. -/
  stop : Nat
  /-- The text that the offsets count in, when it is known. -/
  source : Option Source := none
  deriving DecidableEq, Inhabited

namespace Pos

/-- The number, from 1, of the line of the first character. -/
def lineNumber (p : Pos) : Option Nat :=
  p.source.map fun s => s.lineNumber p.start

/-- The number, from 1, of the first character in its line. -/
def column (p : Pos) : Option Nat :=
  p.source.map fun s => s.column p.start

/-- The line of the first character, without its terminator. -/
def lineText (p : Pos) : Option String :=
  p.source.map fun s => s.lineText p.start

/-- Location, line and column; without a source, the two offsets. -/
def describeShort (p : Pos) : String :=
  match p.source with
  | none => "characters " ++ toString p.start ++ "-" ++ toString p.stop
  | some s => s.place p.start

/-- The short description; with a source, followed by the line and the row
that marks the range in it. -/
def describe (p : Pos) : String :=
  match p.source with
  | none => p.describeShort
  | some s => s.describe p.start p.stop

end Pos

end SmtSession
