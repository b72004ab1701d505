/-!
# S-expressions

**An S-expression** is what an engine reads: an atom, a list, or a name with
its sort. Atoms are texts that are written as they are. Lists are written
between parentheses, with one space between neighbours.
-/

namespace SmtSession

/-- An expression in the syntax of an engine. -/
inductive SExpr
  | atom (text : String)
  | list (items : List SExpr)
  /-- A name and the sort it is declared with. -/
  | typed (name sort : SExpr)

namespace SExpr

instance : Inhabited SExpr := ⟨.list []⟩

mutual

/-- The written form. -/
def text : SExpr → String
  | .atom t => t
  | .list items => "(" ++ String.intercalate " " (texts items) ++ ")"
  | .typed name sort => name.text ++ "::" ++ sort.text

/-- The written forms of several expressions. -/
def texts : List SExpr → List String
  | [] => []
  | e :: es => e.text :: texts es

end

/-- A function applied to arguments. -/
def call (head : SExpr) (args : List SExpr) : SExpr :=
  .list (head :: args)

end SExpr

end SmtSession
