import SmtSession.Engine
import SmtSession.Patience
import SmtSession.Text.Blank
import SmtSession.Text.Utf8
import SmtSession.Transport

/-!
# Conversations with engines

**A conversation** runs an engine and talks to it. The engine prints a prompt
whenever it is ready for the next command, so a reply is what it writes up to
and including a prompt. Its error messages go the same way as its other
output.

The engine goes on only while somebody waits for it. Waiting can have a limit;
at the limit what was written so far stays for the next reply. When the engine
has ended, what it left is given up with the report.

All that is said on either side also goes to a transcript, when there is one.
The transcript begins anew with each start.
-/

namespace SmtSession

/-- How an engine is run and talked to. -/
structure Launch where
  /-- The program, and what it is given. -/
  arguments : List String
  prompt : String
  transcript : Option Path := none
  patience : Option Patience := none
  /-- Whether the engine prints a prompt when it starts. -/
  greets : Bool := true
  /-- The seconds that the engine has to end by itself. -/
  grace : Decimal := .ofInt 5

namespace Launch

/-- The program as it is given. -/
def program (l : Launch) : String :=
  l.arguments.headD ""

/-- The engine's name in messages. -/
def name (l : Launch) : String :=
  match l.arguments with
  | [] => "solver"
  | program :: _ => (Path.ofText program).name

/-- A fault in which the engine is named. -/
def fault (l : Launch) (rest : String) (output : Option String := none) : Fault :=
  { message := l.name ++ " " ++ rest, output := output }

/-- The time at which waiting for a reply ends when it begins now. -/
def deadline (l : Launch) (now : Nat) : Option Nat :=
  l.patience.map fun t => now + t.seconds.inUnits 1000000000

end Launch

/-- A conversation with an engine that has memory `ε`, and the files around
it. -/
structure Conversation (ε : Type) where
  files : Files := {}
  /-- The engine, from its start up to the end of the conversation. -/
  engine : Option ε := none
  /-- The bytes behind the last reply. -/
  pending : Channel.Bytes := []
  /-- The place of the transcript while it is written. -/
  transcript : Option Place := none

namespace Conversation

variable {ε : Type}

section

variable (engine : Engine ε) (prompt : Channel.Bytes) (deadline : Option Nat)

/-- Listens to an engine with bytes pending: how that ends, the bytes pending
then, and the engine then. There is no end when the engine stays silent for
good, or writes for ever and never a prompt. -/
def hear (pending : Channel.Bytes) (e : ε) : Option (Channel.Heard × Channel.Bytes × ε) :=
  match Channel.listen prompt pending [] with
  | some (heard, pending, _) => some (heard, pending, e)
  | none =>
    match engine.next deadline e with
    | (none, _) => none
    | (some (.chunk bytes), e) => by apply hear; exact pending ++ bytes; exact e
    | (some arrival, e) =>
      (Channel.listen prompt pending [arrival]).map fun (heard, pending, _) => (heard, pending, e)
partial_fixpoint

end

/-- A use of a conversation: it changes the conversation, reports what it
does, and can fail. -/
abbrev Use (ε α : Type) : Type :=
  ExceptT Fault (StateM (Conversation ε × List Log.Record)) α

/-- What a use of a conversation gives. -/
def Use.effect (u : Use ε α) (c : Conversation ε) : Transport.Effect (Conversation ε) α :=
  let (outcome, after, log) := u.run (c, [])
  { outcome := outcome, next := after, log := log }

/-- The conversation as it is. -/
def current : Use ε (Conversation ε) :=
  return (← get).1

/-- Changes the conversation. -/
def change (f : Conversation ε → Conversation ε) : Use ε Unit :=
  modify fun (c, log) => (f c, log)

def record (level : Log.Level) (message : String) : Use ε Unit :=
  modify fun (c, log) => (c, log ++ [⟨level, message⟩])

/-- Adds to the transcript, while one is written. -/
def transcribe (text : String) : Use ε Unit :=
  change fun c =>
    match c.transcript with
    | some place => { c with files := c.files.append place text }
    | none => c

/-- Begins a new transcript. -/
def openTranscript (l : Launch) : Use ε Unit := do
  match l.transcript with
  | none => return ()
  | some path =>
    match (← current).files.truncate path with
    | .ok (place, files) =>
      change fun c => { c with files := files, transcript := some place }
    | .error f =>
      throw {
        message := "Cannot write the transcript " ++ path.text ++ ": " ++ f.message path.text }

def closeTranscript : Use ε Unit :=
  change fun c => { c with transcript := none }

/-- The engine, which has to be there. -/
def runningEngine (l : Launch) : Use ε ε := do
  match (← current).engine with
  | some e => return e
  | none => throw (l.fault "is not running")

variable (engine : Engine ε)

/-- Whether the engine is there and has not ended. -/
def isRunning (c : Conversation ε) : Bool :=
  c.engine.any fun e => (engine.exitCode? e).isNone

/-- Hands text over, without waiting for a reply. -/
def send (l : Launch) (text : String) : Use ε Unit := do
  let e ← runningEngine l
  record .debug ("Sending: " ++ Text.stripRight text)
  transcribe text
  match engine.feed (Text.Utf8.encode text) e with
  | some e => change fun c => { c with engine := some e }
  | none => throw { message := "Failed to write to " ++ l.name ++ ": [Errno 32] Broken pipe" }

/-- Waits for a reply. A wait without an end is a fault, and leaves the
conversation as it was. -/
def listen (l : Launch) : Use ε String := do
  let e ← runningEngine l
  match hear engine (Text.Utf8.encode l.prompt) (l.deadline (engine.clock e))
      (← current).pending e with
  | none => throw (l.fault "stays silent")
  | some (heard, pending, e) =>
    change fun c => { c with engine := some e, pending := pending }
    match heard with
    | .reply bytes =>
      let text := Text.Utf8.decode bytes
      record .debug ("Received: " ++ Text.strip text)
      transcribe text
      return text
    | .timedOut soFar =>
      let limit := (l.patience.map Patience.shown).getD ""
      throw (l.fault ("did not answer within " ++ limit ++ " seconds") (Text.Utf8.decode soFar))
    | .ended left =>
      throw (l.fault "terminated unexpectedly" (Text.Utf8.decode left))

/-- Hands text over and waits for the reply. -/
def exchange (l : Launch) (text : String) : Use ε String := do
  send engine l text
  listen engine l

/-- Ends the conversation and waits for the engine to end; an engine that
does not is killed. Gives what it wrote after its last reply. -/
def exit (l : Launch) : Use ε String := do
  let e ← runningEngine l
  let (left, e) := engine.close (engine.clock e + l.grace.inUnits 1000000000) e
  if (engine.exitCode? e).isNone then
    record .warning (l.name ++ " did not terminate, killing it")
  let code := (engine.exitCode? (engine.kill e)).getD 0
  let text := Text.Utf8.decode ((← current).pending ++ left)
  change fun c => { c with engine := none, pending := [] }
  record .debug (l.name ++ " exited with code " ++ toString code)
  transcribe text
  closeTranscript
  return text

/-- Kills the engine and clears up after it. -/
def abandon (l : Launch) : Use ε Unit := do
  change fun c => { c with engine := c.engine.map engine.kill }
  discard (exit engine l)

/-- Starts the engine. Gives its greeting, if it prints a prompt when it
starts. An engine whose greeting fails is abandoned. -/
def start (l : Launch) : Use ε String := do
  if (← current).engine.isSome then
    throw (l.fault "is already running")
  openTranscript l
  record .debug ("Running " ++ l.name ++ ": " ++ String.intercalate " " l.arguments)
  match engine.launch (← current).files l.program l.arguments.tail with
  | .error f =>
    closeTranscript
    throw {
      message := "Failed to start process " ++ l.program ++ ": " ++ f.message l.program }
  | .ok e =>
    change fun c => { c with engine := some e }
    if l.greets then
      try listen engine l
      catch f =>
        abandon engine l
        throw f
    else
      return ""

end Conversation

/-- The transport that is a conversation with an engine. -/
def Transport.conversation (engine : Engine ε) (l : Launch) : Transport (Conversation ε) where
  start := (discard (Conversation.start engine l) : Conversation.Use ε Unit).effect
  send wire := (Conversation.send engine l wire).effect
  exchange wire := (Conversation.exchange engine l wire).effect
  finish := (Conversation.exit engine l).effect

end SmtSession
