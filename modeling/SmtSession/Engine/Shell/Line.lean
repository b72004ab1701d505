/-!
# Lines that a script reads

**A line** is taken from the input up to a line feed. A backslash takes the
next character as it is, so that it separates nothing; behind it, a line feed
does not end the line and is dropped. A line that is read as it stands knows
no such backslashes.

The line is then shared out among variables: each but the last takes one
field, and the last takes all that is left.
-/

namespace SmtSession.Engine.Shell.Line

/-- A character of a line, and whether a backslash stood before it. -/
abbrev Marked : Type := Char × Bool

/-- A line, what follows it in the input, and whether a line feed ended it. -/
structure Taken where
  line : List Marked
  rest : List Char
  terminated : Bool

/-- The line with a character in front. -/
def Taken.push (c : Char) (escaped : Bool) (t : Taken) : Taken :=
  { t with line := (c, escaped) :: t.line }

/-- Takes a line from the input; `asIs` says that backslashes are nothing
special, and `escaped` that one stands in front. -/
def takeFrom (asIs : Bool) : Bool → List Char → Taken
  | _, [] => { line := [], rest := [], terminated := false }
  | true, c :: cs =>
    if c = '\n' then takeFrom asIs false cs else (takeFrom asIs false cs).push c true
  | false, c :: cs =>
    if c = '\n' then { line := [], rest := cs, terminated := true }
    else if c = '\\' && !asIs then takeFrom asIs true cs
    else (takeFrom asIs false cs).push c false

/-- Takes a line from the input. -/
def take (asIs : Bool) (cs : List Char) : Taken :=
  takeFrom asIs false cs

/-- The separators of fields, and those of them that are blanks. -/
structure Separators where
  all : List Char

/-- Whether a character of a line separates fields. -/
def Separators.separates (s : Separators) (c : Marked) : Bool :=
  !c.2 && s.all.contains c.1

/-- Whether a character of a line is a blank that separates fields. -/
def Separators.isBlank (s : Separators) (c : Marked) : Bool :=
  s.separates c && (c.1 = ' ' || c.1 = '\t' || c.1 = '\n')

/-- A line without the blanks at its end. -/
def Separators.trimEnd (s : Separators) (line : List Marked) : List Marked :=
  (line.reverse.dropWhile s.isBlank).reverse

/-- What follows the separator in front: blanks, with at most one other
separator among them. -/
def Separators.behind (s : Separators) (line : List Marked) : List Marked :=
  match line.dropWhile s.isBlank with
  | c :: rest => if s.separates c then rest.dropWhile s.isBlank else c :: rest
  | [] => []

/-- Shares a line out among variables. -/
def Separators.share (s : Separators) : List String → List Marked → List (String × List Char)
  | [], _ => []
  | [name], line => [(name, (s.trimEnd line).map Prod.fst)]
  | name :: more, line =>
    let field := line.takeWhile fun c => !s.separates c
    let rest := s.behind (line.dropWhile fun c => !s.separates c)
    (name, field.map Prod.fst) :: s.share more rest

/-- The values that a line gives variables. -/
def values (separators : List Char) (names : List String) (line : List Marked) :
    List (String × List Char) :=
  let s : Separators := ⟨separators⟩
  s.share names (line.dropWhile s.isBlank)

end SmtSession.Engine.Shell.Line
