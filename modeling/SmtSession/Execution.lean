import SmtSession.Bundle
import SmtSession.Reader.Command
import SmtSession.Session

/-!
# Making sessions and running scripts

**A command** is carried out by the session's operation for it; a command
with no operation is answered as unsupported. A list of commands is carried
out up to a successful `exit`. A text is carried out command by command as it
is read, up to the end of the session or the first command that cannot be
read.
-/

namespace SmtSession

/-! ## Making a session -/

/-- Why there is no session. -/
inductive Session.CreationError
  /-- The backend has no name. -/
  | nameless
  /-- The engine's executable is nowhere to be found. -/
  | notFound (name : String)
  | bundle (error : Bundle.Error)
  deriving DecidableEq, Inhabited

/-- The message of a creation error. -/
def Session.CreationError.message : Session.CreationError → String
  | .nameless => "Solver.NAME must be defined by subclass"
  | .notFound name => "Executable for " ++ name ++ " not found"
  | .bundle e => e.message

/-- A session over a transport that is not started. -/
def Session.create (backend : Backend) (transport : Transport σ) (link : σ) (bundle : Bundle) :
    Except Session.CreationError (Session.Setup σ × Session σ) :=
  if backend.name.isEmpty then
    .error .nameless
  else
    match bundle.initialState with
    | .error e => .error (.bundle e)
    | .ok state =>
      let setup := {
        backend := backend
        transport := transport
        relaxed := bundle.relax.truthy
        verbose := bundle.verbose.truthy }
      .ok (setup, { state := state, link := link })

/-! ## Carrying out commands -/

/-- The operation that carries out a command. -/
def Command.operation? : Command → Option Session.Operation
  | .setLogic logic => some (.setLogic logic)
  | .setOption key value => some (.setOption key value)
  | .getOption key => some (.getOption key.name)
  | .setInfo key value => some (.setInfo key value)
  | .getInfo key => some (.getInfo key.name)
  | .declareFun name args result => some (.declareFun name args result)
  | .declareConst name sort => some (.declareConst name sort)
  | .defineFun name parameters result body => some (.defineFun name parameters result body)
  | .declareSort name arity => some (.declareSort name arity)
  | .defineSort name parameters definition =>
    some (.defineSort name (parameters.map Symbol.name) definition)
  | .assert term => some (.assert term)
  | .push count => some (.push count)
  | .pop count => some (.pop count)
  | .checkSat => some .checkSat
  | .getValue terms => some (.getValue terms)
  | .getProof => some .getProof
  | .getUnsatCore => some .getUnsatCore
  | .getAssignment => some .getAssignment
  | .exit => some .exit
  | .echo _ | .getModel | .getAssertions | .reset | .resetAssertions | .other _ => none

namespace Session

variable {σ : Type} (setup : Setup σ)

/-- Carries out a command. -/
def execute (c : Command) : Act σ Answer := do
  match c.operation? with
  | some op => perform setup op
  | none =>
    record .debug ("No operation for " ++ c.name)
    return .ok .unsupported

/-- Whether a command with that answer is the last one of a script. -/
def isLast (c : Command) (answer : Answer) : Bool :=
  match c, answer with
  | .exit, .ok r => r.isOk
  | _, _ => false

/-- Carries out commands in order, up to one that ends the session or one
with no response. Gives each command that was carried out, with its answer
and the session after it. -/
def executeAll : List Command → Session σ → List (Command × Answer × Session σ)
  | [], _ => []
  | c :: cs, s =>
    let (answer, s) := (execute setup c).run s
    let stop := isLast c answer || !answer.isOk
    (c, answer, s) :: if stop then [] else executeAll cs s

/-! ## Running a text -/

/-- How a run ended. -/
inductive RunEnd
  /-- All commands were carried out, or the session ended. -/
  | completed
  /-- A command was malformed or unknown. -/
  | malformed
  /-- A command had no response. -/
  | noResponse (part : Dialect.Part)
  deriving DecidableEq, Inhabited

/-- What is printed for a response: nothing for a success that the options
silence. An error with a position is also recorded, with the line it is on. -/
def report (r : Response) : Act σ (List String) := do
  let state := (← get).state
  if r.kind = .success ∧ state.options.get? ":print-success" = some "false" then
    return []
  else
    if r.isError then
      match r.pos with
      | some pos => record .warning pos.describe
      | none => pure ()
    return [r.text]

/-- The response to a command that cannot be read. -/
def readErrorResponse : Reader.Error → Response
  | .malformed cause pos => .error cause.message (some pos)
  | .unknownCommand name => .error ("Unknown command: " ++ name) none

/-- Reads and carries out the commands of a script one at a time, up to the
end of the script, an error in it, or the end of the session. Gives the lines
to print. The bound is more than the number of tokens left. -/
def runFrom : Nat → Script → Act σ (List String × RunEnd)
  | 0, _ => return ([], .completed)
  | bound + 1, script => do
    match script.next with
    | (.error e, _) => return (← report (readErrorResponse e), .malformed)
    | (.ok none, _) => return ([], .completed)
    | (.ok (some c), rest) =>
      match ← execute setup c with
      | .error part => return ([], .noResponse part)
      | .ok response =>
        let lines ← report response
        if (← get).state.terminated then
          return (lines, .completed)
        else
          let (more, runEnd) ← runFrom bound rest
          return (lines ++ more, runEnd)

/-- Runs the script that a source holds. -/
def run (source : Source) : Act σ (List String × RunEnd) :=
  let script := Script.ofSource source
  runFrom setup (script.pending.length + 1) script

end Session

end SmtSession
