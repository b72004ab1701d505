import SmtSession.Decimal
import SmtSession.Text.Blank

/-!
# Decimal literals

**A decimal literal** is an optional sign, digits with at most one point among
them, and an optional power of ten. One underscore may stand between two
digits. Blanks around the literal count for nothing.
-/

namespace SmtSession.Decimal.Literal

/-- The digits in front, without the underscores among them, and what follows;
an underscore belongs to the digits if digits stand on both sides of it. -/
def digits : List Char → List Char × List Char
  | c :: '_' :: d :: cs =>
    if c.isDigit && d.isDigit then
      let (ds, rest) := digits (d :: cs)
      (c :: ds, rest)
    else if c.isDigit then ([c], '_' :: d :: cs)
    else ([], c :: '_' :: d :: cs)
  | c :: cs =>
    if c.isDigit then
      let (ds, rest) := digits cs
      (c :: ds, rest)
    else
      ([], c :: cs)
  | [] => ([], [])

/-- The number that digits are. -/
def value (ds : List Char) : Nat :=
  ds.foldl (fun n c => 10 * n + (c.toNat - '0'.toNat)) 0

/-- The sign in front: whether it is a minus, and what follows. -/
def sign : List Char → Bool × List Char
  | '-' :: cs => (true, cs)
  | '+' :: cs => (false, cs)
  | cs => (false, cs)

/-- The power of ten at the end. -/
def power? : List Char → Option Int
  | [] => some 0
  | e :: cs =>
    if e = 'e' || e = 'E' then
      let (negative, cs) := sign cs
      match digits cs with
      | ([], _) => none
      | (ds, []) => some (if negative then -(value ds : Int) else value ds)
      | _ => none
    else
      none

/-- The digits in front of the point and behind it, and what follows. -/
def mantissa? (cs : List Char) : Option (List Char × List Char × List Char) :=
  let (whole, rest) := digits cs
  match rest with
  | '.' :: rest =>
    let (parts, rest) := digits rest
    if whole.isEmpty && parts.isEmpty then none else some (whole, parts, rest)
  | rest => if whole.isEmpty then none else some (whole, [], rest)

/-- The words for what is no number, or beyond all numbers. -/
def words : List String :=
  ["inf", "infinity", "nan"]

end Literal

/-- Reads the decimal literal that a text is. A word for what is no finite
number is read too, and gives none. -/
def ofLiteral? (s : String) : Option (Option Decimal) :=
  let (negative, cs) := Literal.sign (Text.strip s).toList
  if Literal.words.contains (String.ofList (cs.map Char.toLower)) then
    some none
  else do
    let (whole, parts, rest) ← Literal.mantissa? cs
    let power ← Literal.power? rest
    let n := Literal.value (whole ++ parts)
    return some { negative := negative, mantissa := n, exponent := power - parts.length }

end SmtSession.Decimal
