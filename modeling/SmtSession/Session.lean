import SmtSession.Backend
import SmtSession.Setting
import SmtSession.State
import SmtSession.Transport

/-!
# Sessions

**A session** drives one engine through a transport. Every operation goes the
same way: it is checked against the state, its wire is spelled, the wire is
exchanged for a reply, and only an acknowledged wire changes the state. A
failure of any step is an error response, and the session goes on.

A reply is an acknowledgement unless it bears the backend's error mark.
Opening or closing several scopes sends one wire for each; a failure stops
the row, and the scopes acknowledged before it stay counted.

A tree with a node out of place has no spelling and no response either: the
operation ends with the kind of that node. No command that was read from a
text holds such a tree.
-/

namespace SmtSession

/-- What does not change while a session runs. -/
structure Session.Setup (σ : Type) where
  backend : Backend
  transport : Transport σ
  /-- Whether the logic can be set again, which resets the engine. -/
  relaxed : Bool := false
  /-- Whether the start and the end of the session are worth a record of
  their own. -/
  verbose : Bool := false

/-- A session as it runs. -/
structure Session (σ : Type) where
  state : State
  /-- The memory of the transport. -/
  link : σ
  /-- What was reported, the latest last. -/
  log : List Log.Record := []

/-- What operations are asked for. -/
inductive Session.Operation
  | start
  | exit
  | assert (term : Term)
  | push (count : Int)
  | pop (count : Int)
  | checkSat
  | setLogic (logic : Symbol)
  | setOption (key : Keyword) (value : Setting)
  | getOption (key : String)
  | setInfo (key : Keyword) (value : Setting)
  | getInfo (key : String)
  | declareFun (name : Symbol) (args : List SmtSort) (result : SmtSort)
  | declareConst (name : Symbol) (sort : SmtSort)
  | defineFun (name : Symbol) (parameters : List Declaration) (result : SmtSort) (body : Term)
  | declareSort (name : Symbol) (arity : Int)
  | defineSort (name : Symbol) (parameters : List String) (definition : SmtSort)
  | getValue (terms : List Term)
  | getProof
  | getUnsatCore
  | getAssignment
  deriving Inhabited

namespace Session

/-- What an operation ends with: a response, or the kind of a node out of
place. -/
abbrev Answer : Type := Except Dialect.Part Response

/-- Why a wire was not acknowledged. -/
inductive Failure
  /-- The wire has no spelling. -/
  | refused (cause : Dialect.Cause) (pos : Option Pos)
  | fault (fault : Fault)
  /-- The engine reported an error. -/
  | engine (reply : String)
  deriving DecidableEq

/-- A step of a session. -/
abbrev Act (σ α : Type) : Type := StateM (Session σ) α

/-- The authors that the session names when asked. -/
def authors : String := "The smtbridge developers"

/-- The version that the session names when asked. -/
def version : String := "0.1.0"

variable {σ : Type} (setup : Setup σ)

/-! ## Records -/

def record (level : Log.Level) (message : String) : Act σ Unit :=
  modify fun s => { s with log := s.log ++ [⟨level, message⟩] }

/-- Records how the session itself goes. -/
def recordProgress (message : String) : Act σ Unit :=
  record (if setup.verbose then .info else .debug) message

/-! ## Wires -/

/-- Uses the transport, and takes over its memory and its records. -/
def use (f : σ → Transport.Effect σ α) : Act σ (Except Fault α) := do
  let s ← get
  let effect := f s.link
  set { s with link := effect.next, log := s.log ++ effect.log }
  return effect.outcome

/-- The reply of an acknowledged wire, or why a reply is none. -/
def judge (reply : String) : Except Failure String :=
  if setup.backend.reportsError reply then
    .error (.engine (Text.strip (setup.backend.withoutPrompt reply)))
  else
    .ok reply

/-- Exchanges a wire for its reply. -/
def transact (wire : String) : Act σ (Except Failure String) := do
  match ← use (setup.transport.exchange wire) with
  | .ok reply => return judge setup reply
  | .error f => return .error (.fault f)

/-- The message of a command that failed on the way. -/
def failureText (command reason : String) : String :=
  setup.backend.name ++ " " ++ command ++ " command failed: " ++ reason

/-- The response to a failure. A fault of the transport is also recorded. -/
def fail (command : String) (failure : Failure) (pos : Option Pos) : Act σ Response := do
  match failure with
  | .engine reply => return .error reply pos
  | .refused cause at? => return .error (failureText setup command cause.message) (at?.or pos)
  | .fault f =>
    record .error (failureText setup command f.message)
    return .error (failureText setup command f.message) pos

/-- An operation of one wire. -/
structure Request where
  /-- The word of the command, for messages. -/
  command : String
  /-- The wire; there may be none to send. -/
  wire : Except Dialect.Error (Option String)
  /-- The position to blame when the failure has none. -/
  pos : Option Pos := none
  /-- What the state becomes once the wire is acknowledged. -/
  accept : String → State → State
  /-- The response to the reply. -/
  respond : String → Response

/-- Carries out an operation of one wire. -/
def carryOut (r : Request) : Act σ Answer := do
  match r.wire with
  | .error (.misplaced part) => return .error part
  | .error (.refused cause pos) => return .ok (← fail setup r.command (.refused cause pos) r.pos)
  | .ok none => return .ok (r.respond "")
  | .ok (some wire) =>
    match ← transact setup wire with
    | .error failure => return .ok (← fail setup r.command failure r.pos)
    | .ok reply =>
      modify fun s => { s with state := r.accept reply s.state }
      return .ok (r.respond reply)

/-! ## Scopes -/

/-- Sends a wire up to the given number of times, and stops at the first
failure. Gives the number of acknowledgements, and that failure. -/
def repeatWire (wire : String) : Nat → Act σ (Nat × Option Failure)
  | 0 => return (0, none)
  | n + 1 => do
    match ← transact setup wire with
    | .error failure => return (0, some failure)
    | .ok _ =>
      let (acknowledged, failure) ← repeatWire wire n
      return (acknowledged + 1, failure)

/-- Opens or closes scopes one by one; `sign` tells which. -/
def moveScopes (command wire : String) (sign count : Int) : Act σ Response := do
  let (acknowledged, failure) ← repeatWire setup wire count.toNat
  modify fun s => { s with state := s.state.moveScopes (sign * acknowledged) }
  match failure with
  | none => return .success
  | some failure =>
    let response ← fail setup command failure none
    if acknowledged = 0 then
      return response
    else
      let share := toString acknowledged ++ " of " ++ toString count
      let depth := toString (← get).state.scopeDepth
      record .warning (setup.backend.name ++ " acknowledged " ++ share ++ " " ++ command
        ++ " commands, scope depth is now " ++ depth)
      return .error (response.message.getD "" ++ " (" ++ share ++ " acknowledged)") response.pos

/-- The response to a violated rule. -/
def refuse (v : State.Violation) (pos : Option Pos) : Response :=
  .error v.message pos

def push (count : Int) : Act σ Response := do
  match State.checkPush count with
  | some v => return refuse v none
  | none => moveScopes setup "push" Backend.pushWire 1 count

def pop (count : Int) : Act σ Response := do
  match (← get).state.checkPop count with
  | some v => return refuse v none
  | none => moveScopes setup "pop" Backend.popWire (-1) count

/-! ## Start and end -/

def start : Act σ Response := do
  match (← get).state.checkStart with
  | some v => return refuse v none
  | none =>
    match ← use setup.transport.start with
    | .error f =>
      record .error ("Failed to start " ++ setup.backend.name ++ ": " ++ f.message)
      return .error ("Failed to start process " ++ setup.backend.name ++ ": " ++ f.message) none
    | .ok () =>
      modify fun s => { s with state := { s.state with started := true } }
      recordProgress setup ("Started " ++ setup.backend.name)
      return .success

/-- Sends the last wire and ends the conversation, also when the wire could
not be sent. The session is over once the conversation is. -/
def exit : Act σ Response := do
  let sent ← use (setup.transport.send Backend.exitWire)
  match ← use setup.transport.finish with
  | .error f => fail setup "exit" (.fault f) none
  | .ok trailing =>
    modify fun s => { s with state := { s.state with terminated := true } }
    recordProgress setup ("Ended " ++ setup.backend.name)
    match sent with
    | .error f => fail setup "exit" (.fault f) none
    | .ok () =>
      if setup.backend.reportsError trailing then
        return .error (Text.strip trailing) none
      else
        return .successExit

/-! ## Logic, options and information -/

/-- Sets the logic; if there is one already, the engine is reset first. -/
def setLogic (logic : Symbol) : Act σ Answer := do
  let state := (← get).state
  match state.checkSetLogic logic.name setup.relaxed with
  | some v => return .ok (refuse v logic.pos)
  | none =>
    if state.logicFixed then
      carryOut setup {
        command := "set-logic"
        wire := .ok (some Backend.resetWire)
        pos := logic.pos
        accept := fun _ s => s.afterReset.withLogic logic.name
        respond := fun _ => .success }
    else
      modify fun s => { s with state := s.state.withLogic logic.name }
      return .ok .success

def setOption (key : Keyword) (value : Setting) : Act σ Answer := do
  match value.text with
  | .error (.misplaced part) => return .error part
  | .error (.refused cause pos) => return .ok (.error cause.message pos)
  | .ok text =>
    let s ← get
    match s.state.setOption key.name text with
    | .error v => return .ok (refuse v key.pos)
    | .ok state =>
      set { s with state := state }
      return .ok .success

def getOption (key : String) : Act σ Response := do
  match (← get).state.options.get? key with
  | some text => return .ofValue text
  | none => return .unsupported

def setInfo (key : Keyword) (value : Setting) : Act σ Answer := do
  match State.checkSetInfo key.name with
  | some v => return .ok (refuse v key.pos)
  | none =>
    match value.text with
    | .error (.misplaced part) => return .error part
    | .error (.refused cause pos) => return .ok (.error cause.message pos)
    | .ok text =>
      modify fun s => { s with state := s.state.setInfo key.name text }
      return .ok .success

/-- What the session answers when asked for information. The engine is never
asked. -/
def information (backend : Backend) (state : State) (key : String) : Response :=
  match key with
  | ":error-behavior" => .continuedExecution
  | ":status" =>
    match state.lastVerdict with
    | some v => .verdict v
    | none => .unsupported
  | ":authors" => .string authors
  | ":version" => .string version
  | ":name" => .string backend.name
  | key =>
    match state.info.get? key with
    | some text => .ofValue text
    | none => .unsupported

def getInfo (key : String) : Act σ Response := do
  return information setup.backend (← get).state key

/-! ## All operations -/

/-- A request whose reply is looked at by nobody. -/
def forwarded (command wire : String) : Request where
  command := command
  wire := .ok (some wire)
  accept := fun _ s => s
  respond := fun _ => .unsupported

/-- A request that is a success once it is acknowledged, and changes nothing. -/
def acknowledged (command : String) (wire : Except Dialect.Error (Option String)) : Request where
  command := command
  wire := wire
  accept := fun _ s => s
  respond := fun _ => .success

/-- Carries out an operation. -/
def perform (op : Operation) : Act σ Answer :=
  let b := setup.backend
  match op with
  | .start => Except.ok <$> start setup
  | .exit => Except.ok <$> exit setup
  | .assert t =>
    carryOut setup {
      command := "assert"
      wire := some <$> b.assertWire t
      accept := fun _ s => s.forgetVerdict
      respond := fun _ => .success }
  | .push count => Except.ok <$> push setup count
  | .pop count => Except.ok <$> pop setup count
  | .checkSat =>
    carryOut setup {
      command := "check-sat"
      wire := .ok (some Backend.checkWire)
      accept := fun reply s => s.remember (b.verdictOf reply)
      respond := fun reply => .verdict (b.verdictOf reply) }
  | .setLogic logic => setLogic setup logic
  | .setOption key value => setOption key value
  | .getOption key => Except.ok <$> getOption key
  | .setInfo key value => setInfo key value
  | .getInfo key => Except.ok <$> getInfo setup key
  | .declareFun name args result =>
    carryOut setup (acknowledged "declare-fun" (some <$> b.declareWire name args result))
  | .declareConst name sort =>
    carryOut setup (acknowledged "declare-const" (some <$> b.declareWire name [] sort))
  | .defineFun name parameters result body =>
    carryOut setup
      (acknowledged "define-fun" (b.ifDefinitions (b.defineWire name parameters result body)))
  | .declareSort name arity =>
    carryOut setup (acknowledged "declare-sort" (b.ifDefinitions (b.declareSortWire name arity)))
  | .defineSort name parameters definition =>
    carryOut setup
      (acknowledged "define-sort" (b.ifDefinitions (b.defineSortWire name parameters definition)))
  | .getValue terms =>
    carryOut setup {
      command := "get-value"
      wire := some <$> b.valueWire terms
      accept := fun _ s => s
      respond := fun reply => .ofValue (Text.strip (b.withoutPrompt reply)) }
  | .getProof => carryOut setup (forwarded "get-proof" Backend.proofWire)
  | .getUnsatCore => carryOut setup (forwarded "get-unsat-core" Backend.unsatCoreWire)
  | .getAssignment => carryOut setup (forwarded "get-assignment" Backend.assignmentWire)

end Session

end SmtSession
