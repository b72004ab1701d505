import SmtSession.CommandLine
import SmtSession.Engine.Shell
import SmtSession.Installation

/-!
# The program

**The program** runs the script in a file on an engine, and prints the
response to each command. What is worth reporting goes to the error output,
as much of it as was asked for. A script that cannot be read to its end, and
an engine that cannot be started, give another status than success.

All of it is a function of the arguments and of the files at hand: what is
printed, the status, and the files afterwards, with the transcript among them.
-/

namespace SmtSession.Program

/-- What a run of the program leaves behind. -/
structure Finished where
  status : Nat
  output : String := ""
  errors : String := ""
  files : Files

/-- How the program ends. -/
inductive Ending
  /-- The arguments asked for nothing to be run. -/
  | stopped (status : Nat) (output : String)
  | finished (run : Finished)

/-- Lines, each with a line feed behind it. -/
def lines (ls : List String) : String :=
  String.join (ls.map (· ++ "\n"))

/-- The least level that is reported, by how often more was asked for. -/
def threshold : Nat → Log.Level
  | 0 => .warning
  | 1 => .info
  | _ => .debug

/-- The lines for the records that are reported. -/
def reported (least : Log.Level) (log : List Log.Record) : List String :=
  (log.filter fun r => least.rank ≤ r.level.rank).map Log.Record.line

/-- How the engine is to be found and run. -/
def installation (c : CommandLine) : Installation where
  directory := c.binaryDir.bind fun d => if d.isEmpty then none else some (Path.ofText d)
  transcript := some (Path.ofText c.log)
  patience := c.patience

/-- What is asked of the session. -/
def bundle (c : CommandLine) : Bundle where
  relax := .bool c.relaxed
  verbose := .int c.verbosity

/-- The status for a run of a script. -/
def status : Session.RunEnd → Nat
  | .completed => 0
  | .malformed => 1
  | .noResponse _ => 1

/-- Runs a source in a session that has started, and ends the session if the
source did not. Gives the status and the lines to print. -/
def runToEnd (setup : Session.Setup σ) (source : Source) :
    Session.Act σ (Nat × List String) := do
  let (printed, runEnd) ← Session.run setup source
  if !(← get).state.terminated then
    let _ ← Session.perform setup .exit
  return (status runEnd, printed)

/-- Starts a session and runs a source in it. -/
def runSession (c : CommandLine) (source : Source) (setup : Session.Setup (Conversation ε))
    (s : Session (Conversation ε)) : Finished :=
  let shown (s : Session (Conversation ε)) : List String := reported (threshold c.verbosity) s.log
  let (started, s) := (Session.perform setup .start).run s
  match started with
  | .ok r =>
    if r.isError then
      { status := 1, errors := lines (shown s ++ [r.text]), files := s.link.files }
    else
      let ((status, printed), s) := (runToEnd setup source).run s
      { status := status
        output := lines printed
        errors := lines (shown s)
        files := s.link.files }
  | .error _ => { status := 1, errors := lines (shown s), files := s.link.files }

/-- Does what the arguments ask for. -/
def runWith (c : CommandLine) (files : Files) : Finished :=
  let path := Path.ofText c.file
  let failed (message : String) : Finished :=
    { status := 1, errors := lines ["Error: " ++ message], files := files }
  match files.read path with
  | .error f => failed ("cannot read " ++ c.file ++ ": " ++ f.message path.text)
  | .ok content =>
    match Session.withProgram Engine.Shell.engine .yices (installation c) files (bundle c) with
    | .error e => failed e.message
    | .ok (setup, s) => runSession c (Source.ofFile path.text content) setup s

/-- The program. -/
def run (arguments : List String) (files : Files) : Ending :=
  match CommandLine.read arguments with
  | .ok c => .finished (runWith c files)
  | .error .help => .stopped 0 CommandLine.help
  | .error .version => .stopped 0 (lines [Session.version])
  | .error .misuse => .stopped 2 ""

end SmtSession.Program
