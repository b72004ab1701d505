import SmtSession.Channel
import SmtSession.Files

/-!
# Engines from outside

**An engine** is a program that reads commands and writes replies. From
outside it can be started and handed bytes, one can wait for what it does
next, and it can be made to end. Whatever an engine remembers is its own
business.

The engine goes on only while somebody waits for it, and its clock with it.
-/

namespace SmtSession

/-- What can be done with engines that have memory `ε`. -/
structure Engine (ε : Type) where
  /-- Starts the program that a text names, with what it is given. -/
  launch : Files → String → List String → Except FileFault ε
  /-- Hands bytes over, unless nothing on the engine's side can read them. -/
  feed : Channel.Bytes → ε → Option ε
  /-- The time since the start, in nanoseconds. -/
  clock : ε → Nat
  /-- What happens next while one waits, up to a deadline if there is one.
  Nothing ever happens when there is none and the engine stays silent. -/
  next : Option Nat → ε → Option Channel.Arrival × ε
  /-- Lets the engine read to the end of its input and waits for its end, up
  to a deadline. Gives what it writes until then. -/
  close : Nat → ε → Channel.Bytes × ε
  kill : ε → ε
  /-- The code with which the engine has ended; negative for one that was
  killed. -/
  exitCode? : ε → Option Int

end SmtSession
