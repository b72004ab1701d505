import SmtSession.Dialect.Error
import SmtSession.SExpr
import SmtSession.Term
import SmtSession.Text.Quoted

/-!
# Dialects

**A dialect** says how an engine spells terms and sorts. Engines differ in
which operators take any number of arguments, so an application is spelled by
the class of its operator:

- one that is kept takes all the arguments at once;
- one that chains becomes the conjunction of its neighbouring pairs;
- one that associates to the left or to the right becomes nested binary
  applications, to the left under the engine's own name;
- the pairwise-distinct operator becomes the conjunction of all pairs;
- negation of one argument becomes a subtraction from zero.

Every other operator is applied as it is, under the engine's name for it.
Spelling is all or nothing: the first node that has no spelling, in the order
in which the term is written, refuses the whole. Annotations are dropped.
-/

namespace SmtSession

/-- How an engine spells terms and sorts. -/
structure Dialect where
  /-- The engine's name in messages. -/
  name : String
  /-- Operators that take any number of arguments. -/
  kept : List String
  /-- Operators that relate each argument to the next. -/
  chainable : List String
  /-- Operators folded from the left, each with the binary operator it is
  spelled by. -/
  leftAssociative : List (String × String)
  /-- Operators folded from the right. -/
  rightAssociative : List String
  /-- The operator that tells that its arguments differ pairwise. -/
  distinct : String
  /-- The binary operator that tells that two things differ. -/
  notEqual : String
  conjunction : String
  negation : String
  zero : String
  /-- Functions that the engine names otherwise. -/
  functionNames : List (String × String)
  /-- Sorts that the engine names otherwise. -/
  sortNames : List (String × String)
  /-- The name of the Boolean sort. -/
  boolSort : String
  /-- Whether literals other than numerals can be written. -/
  literals : Bool
  /-- Whether function sorts can be written. -/
  functionSorts : Bool

namespace Dialect

/-- The input language itself, restricted to binary comparisons. -/
def smtLib : Dialect where
  name := "smt-lib"
  kept := ["or", "and"]
  chainable := ["=", "<", ">", "<=", ">="]
  leftAssociative := [("xor", "/=")]
  rightAssociative := ["=>"]
  distinct := "distinct"
  notEqual := "/="
  conjunction := "and"
  negation := "-"
  zero := "0"
  functionNames := []
  sortNames := []
  boolSort := "Bool"
  literals := true
  functionSorts := false

/-- The input language of Yices 1. -/
def yices : Dialect :=
  { smtLib with
    name := "yices"
    functionNames := [("ite", "if")]
    sortNames := [("Int", "int"), ("Real", "real")]
    boolSort := "bool"
    literals := false
    functionSorts := true }

variable (d : Dialect)

/-! ## Sorts -/

/-- A sort with no arguments. -/
def sortAtom (name : String) : SExpr :=
  if name = "Bool" then .atom d.boolSort else .atom ((d.sortNames.lookup name).getD name)

/-- Refuses a construct that the engine does not have. -/
def unsupported (construct : Construct) (pos : Option Pos) : Except Error α :=
  .error (.refused (.unsupported d.name construct) pos)

/-- The sort of the functions from the arguments to the result. -/
def arrow (args : List SExpr) (result : SExpr) : SExpr :=
  .call (.atom "->") (args ++ [result])

mutual

/-- How the engine spells a sort. -/
def spellSort : SmtSort → Except Error SExpr
  | .bool _ => pure (.atom d.boolSort)
  | .family name args indices pos =>
    if args.isEmpty && indices.isEmpty then pure (d.sortAtom name)
    else d.unsupported (.parameterizedSort name) pos
  | .abbreviation name _ _ pos => d.unsupported (.sortAbbreviation name) pos
  | .function args result pos =>
    if d.functionSorts then do
      let args ← spellSorts args
      let result ← spellSort result
      pure (arrow args result)
    else
      d.unsupported .functionSorts pos
  | .parameter name pos => d.unsupported (.sortParameter name) pos

/-- How the engine spells several sorts. -/
def spellSorts : List SmtSort → Except Error (List SExpr)
  | [] => pure []
  | s :: ss => do
    let s ← spellSort s
    let ss ← spellSorts ss
    pure (s :: ss)

end

/-- How the engine spells a variable with its sort. -/
def spellDeclaration (decl : Declaration) : Except Error SExpr := do
  let sort ← d.spellSort decl.sort
  pure (.typed (.atom decl.parameter.name) sort)

/-- How the engine spells several variables with their sorts. -/
def spellDeclarations : List Declaration → Except Error (List SExpr)
  | [] => pure []
  | decl :: decls => do
    let e ← d.spellDeclaration decl
    let es ← spellDeclarations decls
    pure (e :: es)

/-! ## Applications -/

/-- The neighbouring pairs of a list. -/
def neighbours : List α → List (α × α)
  | a :: b :: as => (a, b) :: neighbours (b :: as)
  | _ => []

/-- All pairs of a list, the earlier of the two first. -/
def pairs : List α → List (α × α)
  | [] => []
  | a :: as => as.map (a, ·) ++ pairs as

/-- The conjunction of expressions; one alone needs no operator. -/
def conjoin : List SExpr → SExpr
  | [e] => e
  | es => .call (.atom d.conjunction) es

/-- A binary operator between the two of each pair, all of them conjoined. -/
def conjoinPairs (operator : SExpr) (ps : List (SExpr × SExpr)) : SExpr :=
  d.conjoin (ps.map fun (a, b) => .call operator [a, b])

/-- A binary operator folded from the left. -/
def foldLeft (operator : SExpr) : List SExpr → SExpr
  | [] => .list []
  | e :: es => es.foldl (fun acc a => .call operator [acc, a]) e

/-- A binary operator folded from the right. -/
def foldRight (operator : SExpr) : List SExpr → SExpr
  | [] => .list []
  | [e] => e
  | e :: es => .call operator [e, foldRight operator es]

/-- Why an operator cannot take so few arguments. -/
def tooFew? (operator : String) (count : Nat) : Option Cause :=
  if operator ∈ d.kept then none
  else if operator ∈ d.chainable then if count < 2 then some (.shortChain operator) else none
  else if (d.leftAssociative.lookup operator).isSome then none
  else if operator ∈ d.rightAssociative then none
  else if operator = d.distinct then if count < 2 then some (.shortDistinct operator) else none
  else none

/-- An operator applied to arguments, spelled by the operator's class. -/
def combine (head : SExpr) (args : List SExpr) : SExpr :=
  let operator := head.text
  if operator ∈ d.kept then
    .call head args
  else if operator ∈ d.chainable then
    d.conjoinPairs head (neighbours args)
  else match d.leftAssociative.lookup operator with
  | some target => foldLeft (.atom target) args
  | none =>
    if operator ∈ d.rightAssociative then
      foldRight head args
    else if operator = d.distinct then
      d.conjoinPairs (.atom d.notEqual) (pairs args)
    else if operator = d.negation ∧ args.length = 1 then
      .call head (.atom d.zero :: args)
    else match d.functionNames.lookup operator with
    | some target => .call (.atom target) args
    | none => .call head args

/-! ## Terms -/

/-- A literal that is not a numeral, when the engine can write it. -/
def literal (text : String) (cause : Cause) (pos : Option Pos) : Except Error SExpr :=
  if d.literals then pure (.atom text) else .error (.refused cause pos)

mutual

/-- How the engine spells a term. -/
def spell : Term → Except Error SExpr
  | .numeral value _ => pure (.atom (toString value))
  | .decimal text pos => d.literal text (.unsupported d.name .decimals) pos
  | .hex digits pos => d.literal ("#x" ++ digits) .hexLiteral pos
  | .binary digits pos => d.literal ("#b" ++ digits) .binaryLiteral pos
  | .string content pos =>
    d.literal (Text.Quoted.encode content) (.unsupported d.name .strings) pos
  | .symbol s => pure (.atom s.name)
  | .keyword k => .error (.refused .keyword k.pos)
  | .qualified _ _ pos => d.unsupported .qualifiedIdentifiers pos
  | .indexed _ _ pos => d.unsupported .indexedIdentifiers pos
  | .apply head args pos =>
    if args.isEmpty then
      .error (.refused .noArguments pos)
    else do
      let head ← spell head
      match d.tooFew? head.text args.length with
      | some cause => .error (.refused cause pos)
      | none =>
        let args ← spellAll args
        pure (d.combine head args)
  | .quantified q parameters body _ => do
    let decls ← d.spellDeclarations parameters
    let body ← spell body
    pure (.list [.atom q.word, .list decls, body])
  | .letIn bindings body _ => do
    let bs ← spellBindings bindings
    let body ← spell body
    pure (.list [.atom "let", .list bs, body])
  | .attributed term _ _ => spell term
  | .error message pos => .error (.refused (.errorTerm message) pos)
  | .sort s => d.spellSort s
  | .declaration _ => .error (.misplaced .declaration)
  | .binding _ => .error (.misplaced .binding)
  | .attr _ => .error (.misplaced .attr)

/-- How the engine spells several terms. -/
def spellAll : List Term → Except Error (List SExpr)
  | [] => pure []
  | t :: ts => do
    let e ← spell t
    let es ← spellAll ts
    pure (e :: es)

/-- How the engine spells the bindings of a let-term. -/
def spellBindings : List Binding → Except Error (List SExpr)
  | [] => pure []
  | .mk s t :: bs => do
    let e ← spell t
    let es ← spellBindings bs
    pure (.call (.atom s.name) [e] :: es)

end

/-- The text of a term in the engine's language. -/
def render (t : Term) : Except Error String := do
  let e ← d.spell t
  pure e.text

/-- The text of a sort in the engine's language. -/
def renderSort (s : SmtSort) : Except Error String := do
  let e ← d.spellSort s
  pure e.text

end Dialect

end SmtSession
