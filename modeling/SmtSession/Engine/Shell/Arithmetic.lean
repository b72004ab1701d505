/-!
# Arithmetic of shell scripts

**An expression** is made of integers, variables, signs, the four operations
and the remainder, comparisons and parentheses. Comparisons give one or
zero; division rounds towards zero. What makes no sense counts as zero.
-/

namespace SmtSession.Engine.Shell.Arithmetic

/-- The binary operators by how weakly they bind, the longer ones first. -/
def levels : List (List String) :=
  [["||"], ["&&"], ["==", "!="], ["<=", ">=", "<", ">"], ["+", "-"], ["*", "/", "%"]]

/-- A binary operator applied. -/
def apply (operator : String) (a b : Int) : Int :=
  let truth (p : Bool) : Int := if p then 1 else 0
  match operator with
  | "||" => truth (a != 0 || b != 0)
  | "&&" => truth (a != 0 && b != 0)
  | "==" => truth (a == b)
  | "!=" => truth (a != b)
  | "<=" => truth (a ≤ b)
  | ">=" => truth (a ≥ b)
  | "<" => truth (a < b)
  | ">" => truth (a > b)
  | "+" => a + b
  | "-" => a - b
  | "*" => a * b
  | "/" => Int.tdiv a b
  | _ => Int.tmod a b

mutual

/-- The value of an operand, and what follows it. -/
def operand (value : String → Int) : Nat → List Char → Int × List Char
  | 0, cs => (0, cs)
  | bound + 1, cs =>
    match cs with
    | '-' :: cs =>
      let (n, cs) := operand value bound cs
      (-n, cs)
    | '+' :: cs => operand value bound cs
    | '!' :: cs =>
      let (n, cs) := operand value bound cs
      (if n = 0 then 1 else 0, cs)
    | '(' :: cs =>
      let (n, cs) := expression value bound levels cs
      (n, cs.drop 1)
    | '$' :: cs => operand value bound cs
    | c :: cs =>
      if c.isDigit then
        let value := ((c :: cs).takeWhile Char.isDigit).foldl
          (fun n d => 10 * n + (d.toNat - '0'.toNat)) 0
        (value, (c :: cs).dropWhile Char.isDigit)
      else
        let isName (d : Char) : Bool := d.isAlphanum || d = '_'
        let name := (c :: cs).takeWhile isName
        if name.isEmpty then (0, cs)
        else (value (String.ofList name), (c :: cs).dropWhile isName)
    | [] => (0, [])

/-- The value of an expression over operators of the given levels. -/
def expression (value : String → Int) : Nat → List (List String) → List Char → Int × List Char
  | 0, _, cs => (0, cs)
  | bound + 1, [], cs => operand value bound cs
  | bound + 1, operators :: tighter, cs =>
    let (a, cs) := expression value bound tighter cs
    following value bound operators tighter a cs

/-- The value of what was read, with the operators that follow applied. -/
def following (value : String → Int) :
    Nat → List String → List (List String) → Int → List Char → Int × List Char
  | 0, _, _, a, cs => (a, cs)
  | bound + 1, operators, tighter, a, cs =>
    match operators.find? fun op => op.toList.isPrefixOf cs with
    | none => (a, cs)
    | some op =>
      let (b, cs) := expression value bound tighter (cs.drop op.length)
      following value bound operators tighter (apply op a b) cs

end

/-- The value of an expression. -/
def evaluate (value : String → Int) (cs : List Char) : Int :=
  let cs := cs.filter fun c => !(c = ' ' || c = '\t' || c = '\n')
  (expression value (8 * cs.length + 16) levels cs).1

end SmtSession.Engine.Shell.Arithmetic
