import SmtSession.Decimal.Binary64

/-!
# Patience

**Patience** is how long to wait for a reply, in seconds. Messages show the
number as it was given: a whole number as such, a floating-point number with a
point in it.
-/

namespace SmtSession

/-- How long to wait for a reply. -/
structure Patience where
  /-- The number of seconds as messages show it. -/
  shown : String
  seconds : Decimal
  deriving DecidableEq, Inhabited

namespace Patience

/-- A whole number of seconds. -/
def ofInt (n : Int) : Patience :=
  { shown := toString n, seconds := .ofInt n }

/-- A floating-point number of seconds. -/
def ofFloat (d : Decimal) : Patience :=
  { shown := d.floatText, seconds := d }

end Patience

end SmtSession
