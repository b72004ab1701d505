import SmtSession.Log

/-!
# Transports

**A transport** carries wires to an engine and replies back. It can be
started and ended, take a wire without an answer, and exchange a wire for a
reply. Each of these can fail with a fault; what the transport remembers is
its own business, and a session only hands it on.
-/

namespace SmtSession

/-- Why a transport failed, and what the engine wrote, if that is known. -/
structure Fault where
  message : String
  output : Option String := none
  deriving DecidableEq, Inhabited

/-- What one use of a transport gives. -/
structure Transport.Effect (σ α : Type) where
  outcome : Except Fault α
  /-- The memory of the transport afterwards. -/
  next : σ
  /-- What the transport reported on the way. -/
  log : List Log.Record := []

/-- A channel to an engine, with memory `σ`. -/
structure Transport (σ : Type) where
  start : σ → Transport.Effect σ Unit
  /-- Hands over a wire that is not answered. -/
  send : String → σ → Transport.Effect σ Unit
  /-- Hands over a wire and waits for the reply. -/
  exchange : String → σ → Transport.Effect σ String
  /-- Ends the conversation; gives what the engine wrote after its last reply. -/
  finish : σ → Transport.Effect σ String

end SmtSession
