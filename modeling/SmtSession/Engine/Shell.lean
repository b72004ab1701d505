import SmtSession.Engine
import SmtSession.Engine.Shell.Machine
import SmtSession.Text.Utf8

/-!
# Engines that are shell scripts

**A script** is an engine: its machine runs while somebody waits for it. What
it does next is a piece of output, or that it can write no more; a pause in it
is waited for as long as the deadline allows.
-/

namespace SmtSession.Engine.Shell

/-- The characters that the shell has for bytes. -/
def charsOf (bytes : Channel.Bytes) : List Char :=
  bytes.map fun b => Char.ofNat b.toNat

/-- The bytes that the shell has characters for. -/
def bytesOf (cs : List Char) : Channel.Bytes :=
  cs.map fun c => UInt8.ofNat c.toNat

/-- How many steps a script takes before it counts as one that goes on without
end. -/
def stepLimit : Nat := 4000000

/-- How many pauses are waited for at a time. -/
def pauseLimit : Nat := 100000

namespace Machine

/-- A machine that took all the steps it may take: it goes on up to the
deadline. -/
def untilTired (deadline : Option Nat) (m : Machine) : Machine :=
  match deadline with
  | some time => if m.phase = .running then m.advance time else m
  | none => m

/-- What happens next while one waits up to a deadline, and the machine then.
The bound is that on the number of pauses. -/
def next (deadline : Option Nat) : Nat → Machine → Option Channel.Arrival × Machine
  | 0, m => (none, m)
  | pauses + 1, m =>
    let timeUp (m : Machine) : Option Channel.Arrival × Machine :=
      match deadline with
      | some time => (some .deadline, m.advance (max m.clock time))
      | none => (none, m)
    if deadline.any (· ≤ m.clock) then
      (some .deadline, m)
    else
      let m := (m.run stepLimit).untilTired deadline
      if !m.written.isEmpty then
        (some (.chunk (bytesOf m.output)), m.withoutOutput)
      else if !m.holds .output then
        (some .closed, m)
      else
        match m.phase with
        | .asleep wake =>
          if deadline.all (wake < ·) then next deadline pauses (m.advance wake) else timeUp m
        | _ => timeUp m

/-- Runs a machine until its script ends, up to a deadline. -/
def untilEnd (deadline : Nat) : Nat → Machine → Machine
  | 0, m => m
  | pauses + 1, m =>
    if deadline ≤ m.clock then m
    else
      let m := m.run stepLimit
      match m.phase with
      | .asleep wake =>
        if wake < deadline then untilEnd deadline pauses (m.advance wake)
        else m.advance deadline
      | .ended _ => m
      | _ => m.advance deadline

/-- The machine at the start of the script that a text names as a program. -/
def launch (files : Files) (program : String) (arguments : List String) :
    Except FileFault Machine := do
  let chars (s : String) : List Char := charsOf (Text.Utf8.encode s)
  let script ← files.script program
  return ofScript (chars script) (chars program) (arguments.map chars)

/-- Ends the input and runs the script to its end, up to a deadline. Gives
what it writes. -/
def close (deadline : Nat) (m : Machine) : Channel.Bytes × Machine :=
  let m := untilEnd deadline pauseLimit m.endInput
  (bytesOf m.output, m.withoutOutput)

/-- The code with which the script has ended. -/
def exitCode? (m : Machine) : Option Int :=
  match m.phase with
  | .ended code => some code
  | _ => none

end Machine

/-- Shell scripts as engines. -/
def engine : Engine Machine where
  launch := Machine.launch
  feed bytes m := if m.holds .input then some (m.feed (charsOf bytes)) else none
  clock := Machine.clock
  next deadline := Machine.next deadline pauseLimit
  close := Machine.close
  kill m := m.kill 9
  exitCode? := Machine.exitCode?

end SmtSession.Engine.Shell
