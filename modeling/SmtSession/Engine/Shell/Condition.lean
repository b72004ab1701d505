/-!
# Conditions of shell scripts

**A condition** is a list of texts: operands, and operators on texts and on
numbers between them. It holds, or it does not, or it makes no sense. How it
is read depends on how many texts there are, as it does in the shell: one
text is a condition of its own, and an operator between two operands goes
before a negation.

A number that is asked for has to be one; where it is none, the condition
makes no sense.
-/

namespace SmtSession.Engine.Shell.Condition

/-- The integer that a text is, blanks around it aside. -/
def integer? (cs : List Char) : Option Int :=
  let blank (c : Char) : Bool := c = ' ' || c = '\t' || c = '\n'
  let digits := ((cs.dropWhile blank).reverse.dropWhile blank).reverse
  match digits with
  | '+' :: c :: rest => if c.isDigit then (String.ofList (c :: rest)).toInt? else none
  | _ => (String.ofList digits).toInt?

/-- A comparison of texts, by its operator. -/
def textOperator? (operator : String) : Option (List Char → List Char → Bool) :=
  match operator with
  | "=" => some fun a b => a == b
  | "!=" => some fun a b => a != b
  | _ => none

/-- A comparison of numbers, by its operator. -/
def numberOperator? (operator : String) : Option (Int → Int → Bool) :=
  match operator with
  | "-eq" => some fun a b => a == b
  | "-ne" => some fun a b => a != b
  | "-lt" => some fun a b => a < b
  | "-le" => some fun a b => a ≤ b
  | "-gt" => some fun a b => a > b
  | "-ge" => some fun a b => a ≥ b
  | _ => none

/-- Whether there is an operator that stands between two operands. -/
def isComparison (operator : List Char) : Bool :=
  let name := String.ofList operator
  (textOperator? name).isSome || (numberOperator? name).isSome

/-- Whether two operands compare as the operator says. -/
def compare (a operator b : List Char) : Option Bool :=
  let name := String.ofList operator
  match textOperator? name, numberOperator? name with
  | some test, _ => some (test a b)
  | none, some test => do return test (← integer? a) (← integer? b)
  | none, none => none

/-- What an operator in front of one operand says of it. There are no files
to ask about, and no terminals. -/
def unary (operator operand : List Char) : Option Bool :=
  match String.ofList operator with
  | "-n" => some !operand.isEmpty
  | "-z" => some operand.isEmpty
  | "-e" | "-f" | "-d" | "-r" | "-w" | "-x" | "-s" | "-t" => some false
  | _ => none

/-- The texts in front of one that is the given operator, and those behind
it. -/
def splitAt? (operator : String) (args : List (List Char)) :
    Option (List (List Char) × List (List Char)) :=
  match args.dropWhile (· ≠ operator.toList) with
  | [] => none
  | _ :: behind => some (args.takeWhile (· ≠ operator.toList), behind)

/-- Whether a condition holds. The bound is more than the number of its
texts. -/
def holdsWithin : Nat → List (List Char) → Option Bool
  | 0, _ => none
  | _, [] => some false
  | _, [a] => some !a.isEmpty
  | _, [['!'], a] => some a.isEmpty
  | _, [operator, a] => unary operator a
  | bound + 1, [a, operator, b] =>
    if isComparison operator then compare a operator b
    else if operator = "-a".toList then some (!a.isEmpty && !b.isEmpty)
    else if operator = "-o".toList then some (!a.isEmpty || !b.isEmpty)
    else if a = ['!'] then (holdsWithin bound [operator, b]).map (!·)
    else if a = ['('] ∧ b = [')'] then some !operator.isEmpty
    else none
  | bound + 1, args =>
    match splitAt? "-o" args with
    | some (front, behind) => do
      let a ← holdsWithin bound front
      let b ← holdsWithin bound behind
      return a || b
    | none =>
      match splitAt? "-a" args with
      | some (front, behind) => do
        let a ← holdsWithin bound front
        let b ← holdsWithin bound behind
        return a && b
      | none =>
        match args with
        | ['!'] :: rest => (holdsWithin bound rest).map (!·)
        | _ => none

/-- Whether a condition holds, if it makes sense. -/
def holds? (args : List (List Char)) : Option Bool :=
  holdsWithin (args.length + 1) args

end SmtSession.Engine.Shell.Condition
