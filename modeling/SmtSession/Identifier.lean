import SmtSession.Source

/-!
# Symbols, keywords and indices

**Names** are kept as what they say, not as they were written: a quoted
symbol loses its bars. Each carries the position it was read at, if any, and
no comparison looks at that position.
-/

namespace SmtSession

/-- A symbol, such as a function or variable name. -/
structure Symbol where
  /-- The name, without the bars of a quoted symbol. -/
  name : String
  pos : Option Pos := none
  deriving Inhabited

/-- A keyword, such as an option or attribute name. -/
structure Keyword where
  /-- The name, with its leading colon. -/
  name : String
  pos : Option Pos := none
  deriving Inhabited

/-- An index of an indexed identifier or sort. -/
inductive Index
  | number (value : Int)
  | name (text : String)
  deriving DecidableEq, Inhabited

/-- The same symbol, wherever it stands. -/
def Symbol.sameAs (a b : Symbol) : Bool :=
  a.name == b.name

/-- The same keyword, wherever it stands. -/
def Keyword.sameAs (a b : Keyword) : Bool :=
  a.name == b.name

end SmtSession
