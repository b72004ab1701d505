/-!
# Log records

**A record** is one message about the session, at a level. The levels are
ordered by how much a message matters.
-/

namespace SmtSession.Log

/-- How much a message matters. -/
inductive Level
  | debug
  | info
  | warning
  | error
  deriving DecidableEq, Inhabited

/-- The word for a level. -/
def Level.word : Level → String
  | .debug => "DEBUG"
  | .info => "INFO"
  | .warning => "WARNING"
  | .error => "ERROR"

/-- The place of a level in the order. -/
def Level.rank : Level → Nat
  | .debug => 0
  | .info => 1
  | .warning => 2
  | .error => 3

/-- A message at a level. -/
structure Record where
  level : Level
  message : String
  deriving DecidableEq, Inhabited

/-- The line that shows a record. -/
def Record.line (r : Record) : String :=
  r.level.word ++ " - " ++ r.message

end SmtSession.Log
