import SmtSession.Engine.Shell.Arithmetic
import SmtSession.Engine.Shell.Script

/-!
# Expansion of words

**A word** expands to fields. Quoted parts stay together; what an unquoted
parameter gives is split at the separators. All arguments between quotes give
a field each. In a pattern, unquoted stars, question marks and brackets match
more than themselves.
-/

namespace SmtSession.Engine.Shell

/-- The values that words refer to. -/
structure Bindings where
  assigned : List (String × List Char) := []
  /-- The arguments, without the name of the script. -/
  arguments : List (List Char) := []
  /-- The name of the script. -/
  scriptName : List Char := []
  status : Nat := 0

namespace Bindings

/-- The identity that the script goes by. -/
def identity : List Char := "4242".toList

/-- The value of a variable. -/
def lookup? (b : Bindings) (name : String) : Option (List Char) :=
  b.assigned.lookup name

/-- The bindings with a variable set. -/
def assign (b : Bindings) (name : String) (value : List Char) : Bindings :=
  { b with assigned := (name, value) :: b.assigned.filter fun (n, _) => n != name }

/-- The bindings with variables set one after the other. -/
def assignAll (b : Bindings) (values : List (String × List Char)) : Bindings :=
  values.foldl (fun b (name, cs) => b.assign name cs) b

/-- The characters that separate fields. -/
def separators (b : Bindings) : List Char :=
  (b.lookup? "IFS").getD [' ', '\t', '\n']

/-- Texts with spaces between them. -/
def joined : List (List Char) → List Char
  | [] => []
  | [cs] => cs
  | cs :: more => cs ++ ' ' :: joined more

/-- The value of a parameter. -/
def value? (b : Bindings) (name : String) : Option (List Char) :=
  match name with
  | "?" => some (Nat.toDigits 10 b.status)
  | "#" => some (Nat.toDigits 10 b.arguments.length)
  | "$" => some identity
  | "@" => some (joined b.arguments)
  | "*" => some (joined b.arguments)
  | "0" => some b.scriptName
  | "!" => none
  | "-" => some []
  | name =>
    match name.toNat? with
    | some n => b.arguments[n - 1]?
    | none => b.lookup? name

/-- The number that a variable holds. -/
def number (b : Bindings) (name : String) : Int :=
  match b.value? name with
  | some cs => ((String.ofList cs).toInt?).getD 0
  | none => 0

end Bindings

/-- A part of an expanded word. -/
inductive Atom
  | char (c : Char) (quoted : Bool)
  /-- A separator. Blanks next to each other, or next to another separator,
  count as one. -/
  | break (blank : Bool)
  /-- There is a field here, even if it is empty. -/
  | mark
  deriving DecidableEq

/-- An unquoted pattern character with its meaning, or a character that
matches itself. -/
abbrev Glob : Type := List (Char × Bool)

/-- The characters of a bracket expression, and what follows it. -/
def bracket (cs : Glob) : Option (Glob × Glob) :=
  match cs.dropWhile fun (c, quoted) => !(c = ']' && !quoted) with
  | [] => none
  | _ :: rest => some (cs.takeWhile (fun (c, quoted) => !(c = ']' && !quoted)), rest)

/-- Whether a character is in a bracket expression. -/
def inBracket (c : Char) : Glob → Bool
  | (low, _) :: ('-', false) :: (high, _) :: rest => (low ≤ c && c ≤ high) || inBracket c rest
  | (d, _) :: rest => c = d || inBracket c rest
  | [] => false

/-- Whether a pattern matches the whole of a text. The bound is at least the
length of both together. -/
def globMatches : Nat → Glob → List Char → Bool
  | 0, pattern, cs => pattern.isEmpty && cs.isEmpty
  | bound + 1, pattern, cs =>
    match pattern, cs with
    | [], cs => cs.isEmpty
    | ('*', false) :: rest, [] => globMatches bound rest []
    | ('*', false) :: rest, c :: cs =>
      globMatches bound rest (c :: cs) || globMatches bound (('*', false) :: rest) cs
    | ('?', false) :: rest, _ :: cs => globMatches bound rest cs
    | ('[', false) :: rest, c :: cs =>
      match bracket rest with
      | some (('!', false) :: set, rest) => !inBracket c set && globMatches bound rest cs
      | some (set, rest) => inBracket c set && globMatches bound rest cs
      | none => c = '[' && globMatches bound rest cs
    | (d, _) :: rest, c :: cs => c = d && globMatches bound rest cs
    | _ :: _, [] => false

/-- Whether a pattern matches the whole of a text. -/
def Glob.accepts (pattern : Glob) (cs : List Char) : Bool :=
  globMatches (pattern.length + cs.length + 1) pattern cs

/-- The pattern that an expanded word is. -/
def Glob.ofAtoms (atoms : List Atom) : Glob :=
  atoms.filterMap fun
    | .char c quoted => some (c, quoted)
    | .break _ => some (' ', true)
    | .mark => none

/-- The text that an expanded word is, when it is not split. -/
def textOf (atoms : List Atom) : List Char :=
  (Glob.ofAtoms atoms).map Prod.fst

/-- The first of some lengths for which a test holds. -/
def firstLength (test : Nat → Bool) (lengths : List Nat) : Nat :=
  (lengths.find? test).getD 0

namespace Bindings

variable (b : Bindings)

/-- The parts that a value gives in a word. -/
def valueAtoms (quoted : Bool) (cs : List Char) : List Atom :=
  if quoted then .mark :: cs.map (.char · true)
  else cs.map fun c =>
    if b.separators.contains c then .break (c = ' ' || c = '\t' || c = '\n') else .char c false

/-- The parts that all arguments give, each a field of its own. -/
def argumentAtoms : List (List Char) → List Atom
  | [] => []
  | [cs] => .mark :: cs.map (.char · true)
  | cs :: more => .mark :: cs.map (.char · true) ++ .break true :: argumentAtoms more

mutual

/-- The parts of a word. -/
def atoms : List Piece → List Atom
  | [] => []
  | p :: ps => pieceAtoms p ++ atoms ps

def pieceAtoms : Piece → List Atom
  | .text cs quoted =>
    (if quoted then [.mark] else []) ++ cs.map (.char · quoted)
  | .arithmetic e quoted =>
    let n := Arithmetic.evaluate b.number e
    b.valueAtoms quoted (toString n).toList
  | .parameter name change quoted =>
    changed name quoted change

/-- The parts that a parameter gives, after a change. -/
def changed (name : String) (quoted : Bool) : Change → List Atom
  | .plain =>
    if name = "@" ∧ quoted then argumentAtoms b.arguments
    else b.valueAtoms quoted ((b.value? name).getD [])
  | .length => b.valueAtoms quoted (Nat.toDigits 10 ((b.value? name).getD []).length)
  | .orElse ifEmpty word =>
    let others := atoms word
    match b.value? name with
    | none => others
    | some cs => if ifEmpty && cs.isEmpty then others else b.valueAtoms quoted cs
  | .orAssign ifEmpty word =>
    let others := atoms word
    match b.value? name with
    | none => others
    | some cs => if ifEmpty && cs.isEmpty then others else b.valueAtoms quoted cs
  | .instead ifEmpty word =>
    let others := atoms word
    match b.value? name with
    | none => b.valueAtoms quoted []
    | some cs => if ifEmpty && cs.isEmpty then b.valueAtoms quoted [] else others
  | .dropFront longest pattern =>
    let glob := Glob.ofAtoms (atoms pattern)
    let cs := (b.value? name).getD []
    let upward := List.range (cs.length + 1)
    let n := firstLength (fun n => glob.accepts (cs.take n))
      (if longest then upward.reverse else upward)
    b.valueAtoms quoted (cs.drop n)
  | .dropBack longest pattern =>
    let glob := Glob.ofAtoms (atoms pattern)
    let cs := (b.value? name).getD []
    let upward := List.range (cs.length + 1)
    let n := firstLength (fun n => glob.accepts (cs.drop (cs.length - n)))
      (if longest then upward.reverse else upward)
    b.valueAtoms quoted (cs.take (cs.length - n))

end

/-- The part of an expanded word in front of a character. -/
inductive Front
  /-- Nothing, or a separator that is not blank. -/
  | fresh
  /-- A field and blanks behind it. -/
  | ended
  /-- The field being gathered, its latest character first. -/
  | field (chars : List Char)

/-- The characters of the field being gathered, latest first. -/
def Front.gathered : Front → List Char
  | .field cs => cs
  | .fresh => []
  | .ended => []

/-- The fields of an expanded word, behind some part of it. -/
def fieldsFrom : Front → List Atom → List (List Char)
  | .field cs, [] => [cs.reverse]
  | .fresh, [] => []
  | .ended, [] => []
  | front, .char c _ :: rest => fieldsFrom (.field (c :: front.gathered)) rest
  | front, .mark :: rest => fieldsFrom (.field front.gathered) rest
  | .field cs, .break blank :: rest =>
    cs.reverse :: fieldsFrom (if blank then .ended else .fresh) rest
  | .ended, .break blank :: rest => fieldsFrom (if blank then .ended else .fresh) rest
  | .fresh, .break blank :: rest =>
    if blank then fieldsFrom .fresh rest else [] :: fieldsFrom .fresh rest

/-- The fields of a word. -/
def fields (w : Word) : List (List Char) :=
  fieldsFrom .fresh (b.atoms w)

/-- The values that parameters keep when a word is expanded. -/
def kept (w : Word) : List (String × List Char) :=
  w.filterMap fun
    | .parameter name (.orAssign ifEmpty word) _ =>
      match b.value? name with
      | none => some (name, textOf (b.atoms word))
      | some cs => if ifEmpty && cs.isEmpty then some (name, textOf (b.atoms word)) else none
    | _ => none

/-- The text of a word that is not split. -/
def text (w : Word) : List Char :=
  textOf (b.atoms w)

/-- The fields of words in order, and the bindings then. -/
def fieldsOfAll (b : Bindings) : List Word → List (List Char) × Bindings
  | [] => ([], b)
  | w :: ws =>
    let here := b.fields w
    let (more, after) := fieldsOfAll (b.assignAll (b.kept w)) ws
    (here ++ more, after)

/-- The pattern of a word. -/
def pattern (w : Word) : Glob :=
  Glob.ofAtoms (b.atoms w)

end Bindings

end SmtSession.Engine.Shell
