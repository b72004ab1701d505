/-!
# Prompt-delimited channels

**A channel** receives the bytes that an engine writes, in whatever chunks
they arrive. A reply is everything up to the next prompt, the prompt
included; bytes behind it are kept for the next reply.

Listening ends with a reply, at a deadline, or at the end of the stream. At a
deadline the bytes received so far are kept; at the end of the stream they
are given up with the report.
-/

namespace SmtSession.Channel

/-- Bytes as they come from an engine. -/
abbrev Bytes : Type := List UInt8

/-- What can happen while one listens. -/
inductive Arrival
  | chunk (bytes : Bytes)
  /-- The time is up. -/
  | deadline
  /-- The engine will write no more. -/
  | closed
  deriving DecidableEq, Inhabited

/-- How listening ends. -/
inductive Heard
  | reply (bytes : Bytes)
  /-- No reply in time; these bytes were there. -/
  | timedOut (soFar : Bytes)
  /-- No reply before the end; these bytes were left. -/
  | ended (left : Bytes)
  deriving DecidableEq, Inhabited

/-- The bytes up to the end of the first prompt, and those behind it. -/
def cut? (prompt : Bytes) : Bytes → Option (Bytes × Bytes)
  | [] => if prompt.isEmpty then some ([], []) else none
  | b :: bs =>
    if prompt.isPrefixOf (b :: bs) then
      some (prompt, (b :: bs).drop prompt.length)
    else
      (cut? prompt bs).map fun (reply, rest) => (b :: reply, rest)

/-- Listens with bytes pending: how listening ends, the bytes pending then,
and the arrivals that are left. There is no end when the arrivals do not
bring one about. -/
def listen (prompt pending : Bytes) (arrivals : List Arrival) :
    Option (Heard × Bytes × List Arrival) :=
  match cut? prompt pending, arrivals with
  | some (reply, rest), _ => some (.reply reply, rest, arrivals)
  | none, [] => none
  | none, .chunk bytes :: more => listen prompt (pending ++ bytes) more
  | none, .deadline :: more => some (.timedOut pending, pending, more)
  | none, .closed :: more => some (.ended pending, [], more)

end SmtSession.Channel
