import SmtSession.Engine.Shell.Condition
import SmtSession.Engine.Shell.Expansion
import SmtSession.Engine.Shell.Format
import SmtSession.Engine.Shell.Line
import SmtSession.Engine.Shell.Reader

/-!
# Running shell scripts

**A machine** runs a script one step at a time. What is still to be done is a
row of tasks, the next one in front. A step takes that task and puts what it
leads to in its place, so a loop is a task that comes back, and leaving a loop
drops the tasks in front of it.

The machine stops by itself when a script reads a line that has not come yet,
or when it pauses; what was going on is in the tasks, and it goes on from
there once there is more input or the pause is over. Steps take no time, only
pauses do.

Nothing is known here of who reads the output: the machine appends to it, and
whoever runs the machine takes it away.
-/

namespace SmtSession.Engine.Shell

/-- What a file descriptor leads to. -/
inductive Stream
  | input
  | output
  | nowhere
  deriving DecidableEq, Inhabited

/-- The file descriptors that are open. -/
abbrev Descriptors : Type := List (Nat × Stream)

namespace Descriptors

/-- Input on the first descriptor, output on the two behind it. -/
def standard : Descriptors :=
  [(0, .input), (1, .output), (2, .output)]

/-- The descriptors after a redirection. -/
def redirect (ds : Descriptors) (r : Redirection) : Descriptors :=
  let others := ds.filter fun (n, _) => n != r.descriptor
  match r.target with
  | .copy n =>
    match ds.lookup n with
    | some stream => (r.descriptor, stream) :: others
    | none => others
  | .close => others
  | .nowhere => (r.descriptor, .nowhere) :: others

end Descriptors

/-- Something that is still to be done. -/
inductive Task
  | perform (command : Command)
  | sequence (commands : List Command)
  /-- Begins the next round of a loop; the status is that of its body. -/
  | again (untilTrue : Bool) (test body : List Command)
  /-- Goes on with a loop by the status of its test; `last` is the status of
  the loop if it ends here. -/
  | decide (untilTrue : Bool) (test body : List Command) (last : Nat)
  /-- Repeats a body for each of some texts. -/
  | each (name : String) (items : List (List Char)) (body : List Command)
  /-- Chooses by the status. -/
  | branch (body otherwise : List Command)
  /-- Goes on with a command after a success, or after a failure. -/
  | follow (onSuccess : Bool) (second : Command)
  /-- Turns the status round. -/
  | invert
  /-- Puts descriptors back. -/
  | restore (descriptors : Descriptors)
  /-- Ends a function: puts the arguments back. -/
  | leave (arguments : List (List Char))
  /-- Reads a line into variables. -/
  | takeLine (asIs : Bool) (separators : List Char) (names : List String)
  /-- Writes the rest of the input to the output. -/
  | copyInput
  /-- Ends the script with the status. -/
  | finish

/-- What a machine is doing. -/
inductive Phase
  | running
  /-- The script reads input that has not come yet. -/
  | waiting
  /-- The script pauses up to a time. -/
  | asleep (wake : Nat)
  /-- The script has ended. The code of one that was killed is negative. -/
  | ended (code : Int)
  deriving DecidableEq, Inhabited

/-- A script as it runs. -/
structure Machine where
  tasks : List Task
  bindings : Bindings := {}
  functions : List (String × Command) := []
  descriptors : Descriptors := .standard
  /-- The input that was not read yet. -/
  input : List Char := []
  /-- Whether no more input will come. -/
  inputEnded : Bool := false
  /-- The pieces of output that were not taken away yet, the latest first. -/
  written : List (List Char) := []
  /-- The time since the start, in nanoseconds. -/
  clock : Nat := 0
  phase : Phase := .running

namespace Machine

/-- A machine at the start of a script. A script that makes no sense ends at
once. -/
def ofScript (script name : List Char) (arguments : List (List Char)) : Machine :=
  let bindings : Bindings := { arguments := arguments, scriptName := name }
  match read? script with
  | some commands => { tasks := [.sequence commands], bindings := bindings }
  | none => { tasks := [], bindings := bindings, phase := .ended 2 }

/-- Whether the script has ended. -/
def hasEnded (m : Machine) : Bool :=
  match m.phase with
  | .ended _ => true
  | _ => false

/-- Whether some descriptor leads to a stream, those that will be put back
included. An ended script has no descriptors. -/
def holds (m : Machine) (stream : Stream) : Bool :=
  let leads (ds : Descriptors) : Bool := ds.any fun (_, s) => s = stream
  !m.hasEnded && (leads m.descriptors || m.tasks.any fun
    | .restore ds => leads ds
    | _ => false)

/-! ## The surroundings of a machine -/

/-- The output that was not taken away yet. -/
def output (m : Machine) : List Char :=
  m.written.reverse.flatten

/-- The machine with its output taken away. -/
def withoutOutput (m : Machine) : Machine :=
  { m with written := [] }

/-- Wakes a machine that was waiting for input. -/
def wakeForInput (m : Machine) : Machine :=
  if m.phase = .waiting then { m with phase := .running } else m

/-- The machine with more input. -/
def feed (m : Machine) (cs : List Char) : Machine :=
  { m with input := m.input ++ cs }.wakeForInput

/-- The machine with its input at an end. -/
def endInput (m : Machine) : Machine :=
  { m with inputEnded := true }.wakeForInput

/-- The machine at a time: a pause that ends by then is over. -/
def advance (m : Machine) (time : Nat) : Machine :=
  let m := { m with clock := time }
  match m.phase with
  | .asleep wake => if wake ≤ time then { m with phase := .running } else m
  | _ => m

/-- The machine after a signal that ends it. -/
def kill (m : Machine) (signal : Nat) : Machine :=
  if m.hasEnded then m else { m with tasks := [], phase := .ended (-signal) }

/-! ## Small changes -/

/-- The machine with the status of the last command. -/
def withStatus (m : Machine) (status : Nat) : Machine :=
  { m with bindings := { m.bindings with status := status } }

/-- The machine after a test. -/
def tested (m : Machine) (success : Bool) : Machine :=
  m.withStatus (if success then 0 else 1)

/-- The machine with tasks in front of the others. -/
def push (m : Machine) (tasks : List Task) : Machine :=
  { m with tasks := tasks ++ m.tasks }

/-- The machine at the end of its script. -/
def finish (m : Machine) (code : Nat) : Machine :=
  { m with tasks := [], phase := .ended (code % 256 : Nat) }

/-- Writes to a descriptor. -/
def write (m : Machine) (descriptor : Nat) (cs : List Char) : Machine :=
  match m.descriptors.lookup descriptor with
  | some .output => if cs.isEmpty then m else { m with written := cs :: m.written }
  | _ => m

/-- The machine after a command that complains. -/
def complain (m : Machine) (status : Nat) (message : List Char) : Machine :=
  (m.write 2 (m.bindings.scriptName ++ ": ".toList ++ message ++ ['\n'])).withStatus status

/-- The machine with variables set. -/
def assignAll (m : Machine) (values : List (String × List Char)) : Machine :=
  { m with bindings := m.bindings.assignAll values }

/-- The number that digits are. -/
def count? (cs : List Char) : Option Nat :=
  (String.ofList cs).toNat?

/-! ## Leaving loops and functions -/

/-- Leaves a number of loops around, or begins the next round of the last of
them: the descriptors and the tasks then. There may be no loop around. -/
def leaveLoops (next : Bool) : Nat → Descriptors → List Task → Option (Descriptors × List Task)
  | _, _, [] => none
  | depth, ds, t :: ts =>
    let out (resume : Task) : Option (Descriptors × List Task) :=
      match depth with
      | d + 2 => leaveLoops next (d + 1) ds ts
      | _ => some (ds, if next then resume :: ts else ts)
    match t with
    | .again untilTrue test body => out (.again untilTrue test body)
    | .decide untilTrue test body _ => out (.again untilTrue test body)
    | .each name items body => out (.each name items body)
    | .restore ds => leaveLoops next depth ds ts
    | .leave _ => none
    | _ => leaveLoops next depth ds ts

/-- Leaves the function around: its descriptors, the arguments outside it and
the tasks then. There may be no function around. -/
def leaveFunction : Descriptors → List Task →
    Option (Descriptors × List (List Char) × List Task)
  | _, [] => none
  | ds, .leave arguments :: ts => some (ds, arguments, ts)
  | _, .restore ds :: ts => leaveFunction ds ts
  | ds, _ :: ts => leaveFunction ds ts

/-- Leaves loops; where there is none, nothing happens. -/
def breakOut (m : Machine) (next : Bool) (args : List (List Char)) : Machine :=
  let depth := ((args.head?.bind count?).getD 1)
  match leaveLoops next depth m.descriptors m.tasks with
  | some (ds, ts) => { m with descriptors := ds, tasks := ts }.withStatus 0
  | none => m.withStatus 0

/-- Leaves a function; outside of functions the script ends. -/
def returnFrom (m : Machine) (args : List (List Char)) : Machine :=
  let status := ((args.head?.bind count?).getD m.bindings.status) % 256
  match leaveFunction m.descriptors m.tasks with
  | some (ds, arguments, ts) =>
    { m with
      descriptors := ds
      tasks := ts
      bindings := { m.bindings with arguments := arguments } }.withStatus status
  | none => m.finish status

/-! ## Commands of the shell -/

/-- The numbers of signals that end a script, by name. -/
def signals : List (String × Nat) :=
  [("HUP", 1), ("INT", 2), ("QUIT", 3), ("ILL", 4), ("TRAP", 5), ("ABRT", 6), ("BUS", 7),
    ("FPE", 8), ("KILL", 9), ("USR1", 10), ("SEGV", 11), ("USR2", 12), ("PIPE", 13),
    ("ALRM", 14), ("TERM", 15)]

/-- The number of a signal that is given by name or by number. -/
def signal? (cs : List Char) : Option Nat :=
  (count? cs).or (signals.lookup (String.ofList cs))

/-- Sends a signal. The script knows only its own number. -/
def sendSignal (m : Machine) : List (List Char) → Machine
  | ['-', 's'] :: name :: args => deliver (signal? name) args
  | ('-' :: name) :: args => deliver (signal? name) args
  | args => deliver (some 15) args
where
  deliver (signal : Option Nat) (args : List (List Char)) : Machine :=
    match signal with
    | some 0 => m.tested (args = [Bindings.identity])
    | some n => if args = [Bindings.identity] then m.kill n else m.withStatus 1
    | none => m.withStatus 2

/-- The nanoseconds of a pause: a decimal number of seconds, or of the unit
behind it. -/
def pause? (cs : List Char) : Option Nat :=
  let number := cs.takeWhile fun c => c.isDigit || c = '.'
  let whole := number.takeWhile Char.isDigit
  let parts := (number.dropWhile Char.isDigit).drop 1
  let digits := whole ++ parts
  let unit? : Option Nat :=
    match cs.drop number.length with
    | [] => some 1
    | ['s'] => some 1
    | ['m'] => some 60
    | ['h'] => some 3600
    | ['d'] => some 86400
    | _ => none
  do
    let unit ← unit?
    let n ← count? digits
    return n * unit * 1000000000 / Nat.pow 10 parts.length

/-- Pauses for as long as all arguments say together. -/
def pause (m : Machine) (args : List (List Char)) : Machine :=
  match args.mapM pause? with
  | some times =>
    if args.isEmpty then m.withStatus 1
    else { m.withStatus 0 with phase := .asleep (times.foldl (· + ·) m.clock) }
  | none => m.withStatus 1

/-- The options and the names of a command that reads a line. -/
def readArguments (asIs : Bool) : List (List Char) → Bool × List String
  | ['-', 'r'] :: args => readArguments true args
  | args => (asIs, args.map String.ofList)

/-- What a command that sets arguments takes for arguments: nothing when it
has only options. -/
def setArguments? : List (List Char) → Option (List (List Char))
  | [] => none
  | ['-', '-'] :: args => some args
  | ('-' :: _ :: _) :: args => setArguments? args
  | ('+' :: _ :: _) :: args => setArguments? args
  | args => some args

/-- An assignment that is given as an argument. -/
def argumentAssignment? (cs : List Char) : Option (String × List Char) :=
  match cs.dropWhile (· ≠ '=') with
  | _ :: value => some (String.ofList (cs.takeWhile (· ≠ '=')), value)
  | [] => none

/-- The text that a command echoes, and its line feed unless it is told to
leave it out. -/
def echoed (args : List (List Char)) : List Char :=
  let (args, ending) := match args with
    | ['-', 'n'] :: args => (args, [])
    | args => (args, ['\n'])
  let cs := Bindings.joined args
  let (out, stopped) := Format.unescape (cs.length + 1) cs
  if stopped then out else out ++ ending

/-- The test that a command in brackets makes; the closing bracket has to be
there. -/
def bracketed? (args : List (List Char)) : Option Bool :=
  if args.getLast? = some [']'] then Condition.holds? args.dropLast else none

/-- Carries out a command of the shell, or one of the few programs that a
script can count on. -/
def builtin (m : Machine) (separators : List Char) (name : String) (args : List (List Char)) :
    Machine :=
  match name with
  | ":" | "true" | "trap" | "umask" | "wait" => m.withStatus 0
  | "false" => m.withStatus 1
  | "exit" => m.finish ((args.head?.bind count?).getD m.bindings.status)
  | "return" => m.returnFrom args
  | "break" => m.breakOut false args
  | "continue" => m.breakOut true args
  | "shift" =>
    let n := (args.head?.bind count?).getD 1
    let arguments := m.bindings.arguments
    if n ≤ arguments.length then
      { m with bindings := { m.bindings with arguments := arguments.drop n } }.withStatus 0
    else
      m.finish 2
  | "set" =>
    match setArguments? args with
    | some arguments =>
      { m with bindings := { m.bindings with arguments := arguments } }.withStatus 0
    | none => m.withStatus 0
  | "export" | "local" | "readonly" =>
    (m.assignAll (args.filterMap argumentAssignment?)).withStatus 0
  | "unset" =>
    let names := args.map String.ofList
    let kept := m.bindings.assigned.filter fun (n, _) => !names.contains n
    { m with bindings := { m.bindings with assigned := kept } }.withStatus 0
  | "echo" => (m.write 1 (echoed args)).withStatus 0
  | "printf" =>
    match (if args.head? = some ['-', '-'] then args.tail else args) with
    | format :: values =>
      (m.write 1 (Format.output format (values.length + 1) values)).withStatus 0
    | [] => m.complain 2 "printf: usage: printf format [arg ...]".toList
  | "test" | "[" =>
    match (if name = "test" then Condition.holds? args else bracketed? args) with
    | some success => m.tested success
    | none => m.withStatus 2
  | "read" =>
    let (asIs, names) := readArguments false args
    m.push [.takeLine asIs separators names]
  | "eval" =>
    match read? (Bindings.joined args) with
    | some commands => (m.withStatus 0).push [.sequence commands]
    | none => m.finish 2
  | "cat" => m.push [.copyInput]
  | "sleep" => m.pause args
  | "kill" => m.sendSignal args
  | _ => m.complain 127 (name.toList ++ ": not found".toList)

/-- Calls a command by its name: a function of the script, or one of the
shell. -/
def call (m : Machine) (separators : List Char) (name : String) (args : List (List Char)) :
    Machine :=
  match m.functions.lookup name with
  | some body =>
    let caller := m.bindings.arguments
    { m with bindings := { m.bindings with arguments := args } }.push
      [.perform body, .leave caller]
  | none => m.builtin separators name args

/-- Carries out a simple command. The values that are set in front of a name
hold for that command alone; those that stand alone stay. -/
def simple (m : Machine) (assignments : List (String × Word)) (words : List Word)
    (redirections : List Redirection) : Machine :=
  let (fields, bindings) := m.bindings.fieldsOfAll words
  let m := { m with bindings := bindings }
  let values := assignments.map fun (name, w) => (name, m.bindings.text w)
  let separators := (values.lookup "IFS").getD m.bindings.separators
  let before := m.descriptors
  let redirected := { m with descriptors := redirections.foldl Descriptors.redirect before }
  match fields with
  | [] => (m.assignAll values).withStatus 0
  | name :: args =>
    match String.ofList name, args with
    | "exec", [] => redirected.withStatus 0
    | "exec", command :: args =>
      (redirected.push [.finish]).builtin separators (String.ofList command) args
    | "command", command :: args =>
      (redirected.push [.restore before]).builtin separators (String.ofList command) args
    | name, args =>
      if redirections.isEmpty then m.call separators name args
      else (redirected.push [.restore before]).call separators name args

/-- The commands of the first arm with a pattern that matches. -/
def chosen (b : Bindings) (subject : List Char) :
    List (List Word × List Command) → List Command
  | [] => []
  | (patterns, body) :: arms =>
    if patterns.any fun p => (b.pattern p).accepts subject then body else chosen b subject arms

/-- Begins to carry out a command. -/
def perform (m : Machine) : Command → Machine
  | .simple assignments words redirections => m.simple assignments words redirections
  | .both first onSuccess second => m.push [.perform first, .follow onSuccess second]
  | .inverted c => m.push [.perform c, .invert]
  | .ifElse test body otherwise => m.push [.sequence test, .branch body otherwise]
  | .loop untilTrue test body => m.push [.sequence test, .decide untilTrue test body 0]
  | .each name items body =>
    let items := match items with
      | some words => words.flatMap m.bindings.fields
      | none => m.bindings.arguments
    (m.withStatus 0).push [.each name items body]
  | .choose subject arms =>
    match chosen m.bindings (m.bindings.text subject) arms with
    | [] => m.withStatus 0
    | body => m.push [.sequence body]
  | .group body => m.push [.sequence body]
  | .redirected c redirections =>
    let before := m.descriptors
    { m with descriptors := redirections.foldl Descriptors.redirect before }.push
      [.perform c, .restore before]
  | .define name body =>
    { m with functions := (name, body) :: m.functions }.withStatus 0

/-- Reads a line into variables, unless more input has to come first. The
status tells whether a line feed ended it. -/
def takeLine (m : Machine) (asIs : Bool) (separators : List Char) (names : List String) :
    Machine :=
  match m.descriptors.lookup 0 with
  | some .input =>
    let taken := Line.take asIs m.input
    if taken.terminated || m.inputEnded then
      ({ m with input := taken.rest }.assignAll
        (Line.values separators names taken.line)).tested taken.terminated
    else
      { m.push [.takeLine asIs separators names] with phase := .waiting }
  | _ => (m.assignAll (names.map fun name => (name, []))).withStatus 1

/-- Writes the input to the output as it comes, up to its end. -/
def copyInput (m : Machine) : Machine :=
  match m.descriptors.lookup 0 with
  | some .input =>
    let m := { m.write 1 m.input with input := [] }
    if m.inputEnded then m.withStatus 0
    else { m.push [.copyInput] with phase := .waiting }
  | some _ => m.withStatus 0
  | none => m.withStatus 1

/-- Carries out a task that was taken off the row. -/
def carryOut (m : Machine) : Task → Machine
  | .perform c => m.perform c
  | .sequence [] => m
  | .sequence (c :: cs) => m.push [.perform c, .sequence cs]
  | .again untilTrue test body =>
    m.push [.sequence test, .decide untilTrue test body m.bindings.status]
  | .decide untilTrue test body last =>
    if (m.bindings.status == 0) != untilTrue then
      m.push [.sequence body, .again untilTrue test body]
    else
      m.withStatus last
  | .each _ [] _ => m
  | .each name (item :: items) body =>
    (m.assignAll [(name, item)]).push [.sequence body, .each name items body]
  | .branch body otherwise =>
    if m.bindings.status = 0 then m.push [.sequence body]
    else (m.withStatus 0).push [.sequence otherwise]
  | .follow onSuccess second =>
    if (m.bindings.status == 0) = onSuccess then m.push [.perform second] else m
  | .invert => m.tested (m.bindings.status ≠ 0)
  | .restore ds => { m with descriptors := ds }
  | .leave arguments => { m with bindings := { m.bindings with arguments := arguments } }
  | .takeLine asIs separators names => m.takeLine asIs separators names
  | .copyInput => m.copyInput
  | .finish => m.finish m.bindings.status

/-- One step. A script with nothing left to do ends with its last status. -/
def step (m : Machine) : Machine :=
  match m.phase, m.tasks with
  | .running, [] => m.finish m.bindings.status
  | .running, t :: ts => { m with tasks := ts }.carryOut t
  | _, _ => m

/-- Runs a machine until it stops by itself, for so many steps at most. -/
def run : Nat → Machine → Machine
  | 0, m => m
  | steps + 1, m => if m.phase = .running then run steps m.step else m

end Machine

end SmtSession.Engine.Shell
