import SmtSession.Identifier

/-!
# Sorts

**A sort** is the Boolean sort, a named one with arguments or indices, a
function sort, an abbreviation, or a parameter that an enclosing definition
binds. Positions are carried for messages; `SmtSort.sameAs` does not look at
them.
-/

namespace SmtSession

/-- A sort expression. -/
inductive SmtSort
  /-- The sort of truth values. -/
  | bool (pos : Option Pos)
  /-- A name alone, applied to sorts, or with indices. -/
  | family (name : String) (args : List SmtSort) (indices : List Index) (pos : Option Pos)
  /-- A defined name, with the definition it stands for. -/
  | abbreviation (name : String) (parameters : List String) (definition : SmtSort)
      (pos : Option Pos)
  /-- The functions from the argument sorts to the result sort. -/
  | function (args : List SmtSort) (result : SmtSort) (pos : Option Pos)
  /-- A name that an enclosing sort definition lists as its parameter. -/
  | parameter (name : String) (pos : Option Pos)

namespace SmtSort

instance : Inhabited SmtSort := ⟨.bool none⟩

/-- The range the sort was read from. -/
def pos : SmtSort → Option Pos
  | .bool p => p
  | .family _ _ _ p => p
  | .abbreviation _ _ _ p => p
  | .function _ _ p => p
  | .parameter _ p => p

mutual

/-- The same sort, wherever its parts stand. -/
def sameAs : SmtSort → SmtSort → Bool
  | .bool _, .bool _ => true
  | .family n as is _, .family m bs js _ => n == m && sameAll as bs && is == js
  | .abbreviation n ps d _, .abbreviation m qs e _ => n == m && ps == qs && sameAs d e
  | .function as r _, .function bs s _ => sameAll as bs && sameAs r s
  | .parameter n _, .parameter m _ => n == m
  | _, _ => false

/-- The same sorts in the same order. -/
def sameAll : List SmtSort → List SmtSort → Bool
  | [], [] => true
  | a :: as, b :: bs => sameAs a b && sameAll as bs
  | _, _ => false

end

end SmtSort

/-- A variable of a binder or a parameter of a definition, with its sort. -/
structure Declaration where
  parameter : Symbol
  sort : SmtSort
  deriving Inhabited

/-- The same declaration, wherever its parts stand. -/
def Declaration.sameAs (a b : Declaration) : Bool :=
  a.parameter.sameAs b.parameter && a.sort.sameAs b.sort

/-- The same declarations in the same order. -/
def Declaration.sameAll : List Declaration → List Declaration → Bool
  | [], [] => true
  | a :: as, b :: bs => a.sameAs b && sameAll as bs
  | _, _ => false

end SmtSession
