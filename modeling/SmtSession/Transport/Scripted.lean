import SmtSession.Engine.Stack
import SmtSession.Text.Blank
import SmtSession.Transport

/-!
# Scripted transports

**A scripted transport** plays a part that is laid down beforehand: which
uses fail, and which replies come. When the replies are used up, a stack
engine answers, or there is the prompt alone.
-/

namespace SmtSession.Transport

/-- A fault for the wires in which a text occurs. -/
structure Trap where
  needle : String
  message : String

/-- The fault of a trap, when the wire springs it. -/
def Trap.fault? (t : Option Trap) (wire : String) : Option Fault :=
  match t with
  | some t => if Text.contains wire t.needle then some { message := t.message } else none
  | none => none

/-- The part that a scripted transport plays. -/
structure Part where
  /-- The engine's name in messages. -/
  name : String
  prompt : String
  startFault : Option Fault := none
  sendTrap : Option Trap := none
  listenTrap : Option Trap := none
  finishFault : Option Fault := none
  /-- What the engine writes after its last reply. -/
  farewell : String := ""
  /-- Whether a stack engine answers when the replies are used up. -/
  answers : Bool := false

/-- What a scripted transport remembers. -/
structure Played where
  running : Bool := false
  /-- The wires handed over, the latest first. -/
  sent : List String := []
  /-- The replies to come. -/
  replies : List (Except Fault String) := []
  engine : Engine.Stack := {}

namespace Part

variable (p : Part)

def notRunning : Fault :=
  { message := p.name ++ " is not running" }

def start (s : Played) : Effect Played Unit :=
  match p.startFault with
  | some f => { outcome := .error f, next := s }
  | none =>
    if s.running then
      { outcome := .error { message := p.name ++ " is already running" }, next := s }
    else
      { outcome := .ok (), next := { s with running := true } }

def send (wire : String) (s : Played) : Effect Played Unit :=
  if s.running then
    match Trap.fault? p.sendTrap wire with
    | some f => { outcome := .error f, next := s }
    | none => { outcome := .ok (), next := { s with sent := wire :: s.sent } }
  else
    { outcome := .error p.notRunning, next := s }

/-- The reply to a wire that was handed over. -/
def reply (wire : String) (s : Played) : Effect Played String :=
  match s.replies with
  | r :: rest => { outcome := r, next := { s with replies := rest } }
  | [] =>
    if p.answers then
      let (answer, engine) := s.engine.handle wire
      { outcome := .ok (answer ++ p.prompt), next := { s with engine := engine } }
    else
      { outcome := .ok p.prompt, next := s }

def exchange (wire : String) (s : Played) : Effect Played String :=
  let sent := p.send wire s
  match sent.outcome with
  | .error f => { outcome := .error f, next := sent.next }
  | .ok () =>
    match Trap.fault? p.listenTrap wire with
    | some f => { outcome := .error f, next := sent.next }
    | none => p.reply wire sent.next

def finish (s : Played) : Effect Played String :=
  if s.running then
    let ended := { s with running := false }
    match p.finishFault with
    | some f => { outcome := .error f, next := ended }
    | none => { outcome := .ok p.farewell, next := ended }
  else
    { outcome := .error p.notRunning, next := s }

end Part

/-- The transport that plays a part. -/
def scripted (p : Part) : Transport Played where
  start := p.start
  send := p.send
  exchange := p.exchange
  finish := p.finish

end SmtSession.Transport
