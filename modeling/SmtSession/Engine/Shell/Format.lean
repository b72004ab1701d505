/-!
# Formatted output of shell scripts

**A format** is text with escapes and with directives that take arguments.
It is used again as long as arguments are left. A missing argument counts as
empty, and as zero where a number is asked for.
-/

namespace SmtSession.Engine.Shell.Format

/-- The value of octal digits in front, three at most, and the rest. -/
def octal : Nat → Nat → List Char → Nat × List Char
  | 0, n, cs => (n, cs)
  | more + 1, n, c :: cs =>
    if '0' ≤ c && c ≤ '7' then octal more (8 * n + (c.toNat - '0'.toNat)) cs else (n, c :: cs)
  | _, n, [] => (n, [])

/-- The character that an escape stands for, behind its backslash. -/
def escape (cs : List Char) : List Char × List Char :=
  match cs with
  | [] => (['\\'], [])
  | c :: rest =>
    match c with
    | 'n' => (['\n'], rest)
    | 't' => (['\t'], rest)
    | 'r' => (['\r'], rest)
    | 'a' => ([Char.ofNat 7], rest)
    | 'b' => ([Char.ofNat 8], rest)
    | 'v' => ([Char.ofNat 11], rest)
    | 'f' => ([Char.ofNat 12], rest)
    | 'e' => ([Char.ofNat 27], rest)
    | '\\' => (['\\'], rest)
    | '"' => (['"'], rest)
    | '\'' => (['\''], rest)
    | c =>
      if '0' ≤ c && c ≤ '7' then
        let (n, rest) := octal 3 0 cs
        ([Char.ofNat (n % 256)], rest)
      else
        (['\\', c], rest)

/-- The text with its escapes replaced, and whether one of them ends all
output. Octal digits may have a zero more in front here. -/
def unescape : Nat → List Char → List Char × Bool
  | 0, _ => ([], false)
  | _, [] => ([], false)
  | _, '\\' :: 'c' :: _ => ([], true)
  | bound + 1, '\\' :: '0' :: cs =>
    let (n, rest) := octal 3 0 cs
    let (more, stopped) := unescape bound rest
    (Char.ofNat (n % 256) :: more, stopped)
  | bound + 1, '\\' :: cs =>
    let (out, rest) := escape cs
    let (more, stopped) := unescape bound rest
    (out ++ more, stopped)
  | bound + 1, c :: cs =>
    let (more, stopped) := unescape bound cs
    (c :: more, stopped)

/-- The value of a digit, up to fifteen. -/
def digit? (c : Char) : Option Nat :=
  if c.isDigit then some (c.toNat - '0'.toNat)
  else if 'a' ≤ c && c ≤ 'f' then some (c.toNat - 'a'.toNat + 10)
  else if 'A' ≤ c && c ≤ 'F' then some (c.toNat - 'A'.toNat + 10)
  else none

/-- The number that digits of a base in front are, added to digits already
read. -/
def inBase (base : Nat) : Nat → List Char → Nat
  | n, [] => n
  | n, c :: cs =>
    match digit? c with
    | some d => if d < base then inBase base (base * n + d) cs else n
    | none => n

/-- The natural number that a text begins with: hexadecimal or octal, if it
says so, or decimal. -/
def natural : List Char → Nat
  | '0' :: 'x' :: cs => inBase 16 0 cs
  | '0' :: 'X' :: cs => inBase 16 0 cs
  | '0' :: cs => inBase 8 0 cs
  | cs => inBase 10 0 cs

/-- The integer that a text begins with, or the code of a character behind a
quote. -/
def integer (cs : List Char) : Int :=
  match cs.dropWhile (fun c => c = ' ' || c = '\t') with
  | '-' :: ds => -(natural ds)
  | '+' :: ds => natural ds
  | '\'' :: c :: _ => c.toNat
  | '"' :: c :: _ => c.toNat
  | ds => natural ds

/-- An integer in the sixty-four bits of an unsigned one. -/
def unsigned (n : Int) : Nat :=
  (n % 18446744073709551616).toNat

/-- A directive: flags, width, precision and the letter. -/
structure Directive where
  left : Bool := false
  zero : Bool := false
  plus : Bool := false
  space : Bool := false
  marked : Bool := false
  width : Nat := 0
  precision : Option Nat := none

/-- The flags in front. -/
def flags : Directive → List Char → Directive × List Char
  | d, '-' :: cs => flags { d with left := true } cs
  | d, '0' :: cs => flags { d with zero := true } cs
  | d, '+' :: cs => flags { d with plus := true } cs
  | d, ' ' :: cs => flags { d with space := true } cs
  | d, '#' :: cs => flags { d with marked := true } cs
  | d, cs => (d, cs)

/-- A number in front. -/
def number (cs : List Char) : Nat × List Char :=
  ((cs.takeWhile Char.isDigit).foldl (fun n c => 10 * n + (c.toNat - '0'.toNat)) 0,
    cs.dropWhile Char.isDigit)

/-- Text brought to the width of a directive. -/
def pad (d : Directive) (cs : List Char) : List Char :=
  let missing := d.width - cs.length
  if d.left then cs ++ List.replicate missing ' ' else List.replicate missing ' ' ++ cs

/-- Digits with a sign, brought to the precision and the width of a
directive. -/
def padNumber (d : Directive) (sign digits : List Char) : List Char :=
  match d.precision with
  | some p => pad d (sign ++ List.replicate (p - digits.length) '0' ++ digits)
  | none =>
    if d.zero && !d.left then
      sign ++ List.replicate (d.width - (sign.length + digits.length)) '0' ++ digits
    else
      pad d (sign ++ digits)

/-- The output of a directive for an argument, and whether that ends all
output; none for a letter that is no directive. -/
def convert (d : Directive) (letter : Char) (arg : List Char) : Option (List Char × Bool) :=
  let n := integer arg
  let sign := if n < 0 then ['-'] else if d.plus then ['+'] else if d.space then [' '] else []
  let mark (cs : List Char) : List Char := if d.marked && n ≠ 0 then cs else []
  match letter with
  | 's' => some (pad d (match d.precision with | some p => arg.take p | none => arg), false)
  | 'b' =>
    let (out, stopped) := unescape (arg.length + 1) arg
    some (pad d out, stopped)
  | 'c' => some (pad d (arg.take 1), false)
  | 'd' => some (padNumber d sign (Nat.toDigits 10 n.natAbs), false)
  | 'i' => some (padNumber d sign (Nat.toDigits 10 n.natAbs), false)
  | 'u' => some (padNumber d [] (Nat.toDigits 10 (unsigned n)), false)
  | 'o' => some (padNumber d (mark ['0']) (Nat.toDigits 8 (unsigned n)), false)
  | 'x' => some (padNumber d (mark ['0', 'x']) (Nat.toDigits 16 (unsigned n)), false)
  | 'X' =>
    some (padNumber d (mark ['0', 'X']) ((Nat.toDigits 16 (unsigned n)).map Char.toUpper), false)
  | _ => none

/-- A width or a precision: a number, or a star for the next argument. What
follows it, and the arguments that are left. -/
def size (cs : List Char) (args : List (List Char)) : Int × List Char × List (List Char) :=
  match cs with
  | '*' :: rest => (integer (args.headD []), rest, args.tail)
  | cs =>
    let (n, rest) := number cs
    (n, rest, args)

/-- A directive behind its percent sign, without the letter. What follows it,
and the arguments that are left. -/
def directive (cs : List Char) (args : List (List Char)) :
    Directive × List Char × List (List Char) :=
  let (d, rest) := flags {} cs
  let (width, rest, args) := size rest args
  let d := { d with left := d.left || width < 0, width := width.natAbs }
  match rest with
  | '.' :: rest =>
    let (precision, rest, args) := size rest args
    ({ d with precision := if precision < 0 then none else some precision.toNat }, rest, args)
  | rest => (d, rest, args)

/-- What using a format once gives. -/
structure Used where
  output : List Char := []
  /-- The arguments that are left. -/
  left : List (List Char)
  /-- Whether there is to be no more output. -/
  stopped : Bool := false

/-- The same with output in front. -/
def Used.behind (u : Used) (cs : List Char) : Used :=
  { u with output := cs ++ u.output }

/-- Uses a format once. -/
def once : Nat → List Char → List (List Char) → Used
  | 0, _, args => { left := args }
  | bound + 1, cs, args =>
    match cs with
    | [] => { left := args }
    | '\\' :: rest =>
      let (out, rest) := escape rest
      (once bound rest args).behind out
    | '%' :: '%' :: rest => (once bound rest args).behind ['%']
    | '%' :: rest =>
      let (d, rest, args) := directive rest args
      match rest with
      | [] => { left := args, stopped := true }
      | letter :: rest =>
        match convert d letter (args.headD []) with
        | some (out, true) => { output := out, left := [], stopped := true }
        | some (out, false) => (once bound rest args.tail).behind out
        | none => { left := args, stopped := true }
    | c :: rest => (once bound rest args).behind [c]

/-- The output of a format, used again while it takes arguments and there are
some left. -/
def output (format : List Char) : Nat → List (List Char) → List Char
  | 0, _ => []
  | more + 1, args =>
    let u := once (format.length + 1) format args
    if u.stopped || u.left.isEmpty || u.left.length = args.length then u.output
    else u.output ++ output format more u.left

end SmtSession.Engine.Shell.Format
