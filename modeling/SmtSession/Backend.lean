import SmtSession.Dialect
import SmtSession.Response
import SmtSession.Text.Blank

/-!
# Backends

**A backend** is what a session must know of its engine: the name, the prompt
behind each reply, the mark of an error in a reply, the dialect, and whether
definitions are sent at all.

**A wire** is one command of the engine, on a line of its own. The functions
here spell the wire of each request; a request whose terms or sorts have no
spelling has no wire.
-/

namespace SmtSession

/-- What a session must know of its engine. -/
structure Backend where
  name : String
  /-- What the engine prints when it is ready for a command. -/
  prompt : String
  /-- What occurs in every reply that reports an error. -/
  errorMark : String
  dialect : Dialect
  /-- Whether the engine is told of defined functions and of sorts. If not,
  these commands are accepted and nothing is sent. -/
  definitions : Bool
  /-- What the engine's program is given to talk in this way. -/
  arguments : List String
  /-- The file for the transcript, unless another one is named. -/
  transcript : String

namespace Backend

/-- The Yices 1 engine in interactive mode. -/
def yices : Backend where
  name := "yices"
  prompt := "yices > "
  errorMark := "Error"
  dialect := Dialect.yices
  definitions := true
  arguments := ["-i"]
  transcript := "solver.out.yices"

/-- The same without definitions. -/
def minimal : Backend :=
  { yices with definitions := false }

/-- A backend that was not given a name. -/
def nameless : Backend :=
  { yices with name := "" }

variable (b : Backend)

/-! ## Replies -/

/-- The reply without the prompt at its end. -/
def withoutPrompt (reply : String) : String :=
  if b.prompt.isEmpty then reply else (Text.dropEnding? b.prompt reply).getD reply

/-- Whether a reply reports an error. -/
def reportsError (reply : String) : Bool :=
  Text.contains reply b.errorMark

/-- The verdict in the reply to a check. The word for satisfiable is part of
the word for unsatisfiable, which therefore goes first; a reply with neither
decides nothing. -/
def verdictOf (reply : String) : Verdict :=
  let text := b.withoutPrompt reply
  if Text.contains text "unsat" then .unsat
  else if Text.contains text "sat" then .sat
  else .unknown

/-! ## Wires -/

/-- An expression on a line of its own. -/
def line (e : SExpr) : String :=
  e.text ++ "\n"

/-- A command with no arguments. -/
def word (name : String) : String :=
  line (.list [.atom name])

def checkWire : String := word "check"
def pushWire : String := word "push"
def popWire : String := word "pop"
def resetWire : String := word "reset"
def exitWire : String := word "exit"
def proofWire : String := word "get-proof"
def unsatCoreWire : String := word "get-unsat-core"
def assignmentWire : String := word "get-assignment"

/-- Asserts a term in the innermost scope. -/
def assertWire (t : Term) : Except Dialect.Error String := do
  let e ← b.dialect.spell t
  pure (line (.call (.atom "assert+") [e]))

/-- Asks for the values of terms. -/
def valueWire (ts : List Term) : Except Dialect.Error String := do
  let es ← b.dialect.spellAll ts
  pure (line (.call (.atom "get-value") es))

/-- The sort of a declared function; without arguments, that of its result. -/
def signature (args : List SmtSort) (result : SmtSort) : Except Dialect.Error SExpr := do
  if args.isEmpty then
    b.dialect.spellSort result
  else
    let args ← b.dialect.spellSorts args
    let result ← b.dialect.spellSort result
    pure (Dialect.arrow args result)

/-- Declares a constant or a function. -/
def declareWire (name : Symbol) (args : List SmtSort) (result : SmtSort) :
    Except Dialect.Error String := do
  let sort ← b.signature args result
  pure (line (.call (.atom "define") [.typed (.atom name.name) sort]))

/-- Defines a constant or a function. -/
def defineWire (name : Symbol) (parameters : List Declaration) (result : SmtSort) (body : Term) :
    Except Dialect.Error String := do
  let value ← b.dialect.spell body
  let sort ← b.signature (parameters.map Declaration.sort) result
  if parameters.isEmpty then
    pure (line (.call (.atom "define") [.typed (.atom name.name) sort, value]))
  else
    let decls ← b.dialect.spellDeclarations parameters
    let function := SExpr.call (.atom "lambda") [.list decls, value]
    pure (line (.call (.atom "define") [.typed (.atom name.name) sort, function]))

/-- Declares a sort, which must have no arguments. -/
def declareSortWire (name : Symbol) (arity : Int) : Except Dialect.Error String :=
  if arity = 0 then
    pure (line (.call (.atom "define-type") [.atom name.name]))
  else
    .error (.refused (.sortArity b.name name.name arity) name.pos)

/-- Defines a sort, which must have no parameters. -/
def defineSortWire (name : Symbol) (parameters : List String) (definition : SmtSort) :
    Except Dialect.Error String :=
  if parameters.isEmpty then do
    let sort ← b.dialect.spellSort definition
    pure (line (.call (.atom "define-type") [.atom name.name, sort]))
  else
    .error (.refused (.sortParameters b.name name.name) name.pos)

/-- The wire of a definition, for an engine that is told of them. -/
def ifDefinitions (wire : Except Dialect.Error String) : Except Dialect.Error (Option String) :=
  if b.definitions then some <$> wire else pure none

end Backend

end SmtSession
