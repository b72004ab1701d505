import SmtSession.Source
import SmtSession.Text.Quoted

/-!
# Responses

**A response** is what the caller sees of one command: its kind, and the
parts that belong to the kind. A verdict, a string and a value come with a
text; an error comes with a message, and with a position when one is known.
-/

namespace SmtSession

/-- The outcome of a satisfiability check. -/
inductive Verdict
  | sat
  | unsat
  | unknown
  deriving DecidableEq, Inhabited

/-- The word for a verdict. -/
def Verdict.word : Verdict → String
  | .sat => "sat"
  | .unsat => "unsat"
  | .unknown => "unknown"

/-- The verdict that a word stands for. -/
def Verdict.ofWord? (word : String) : Option Verdict :=
  [Verdict.sat, .unsat, .unknown].find? fun v => v.word == word

namespace Response

/-- The kinds of responses. -/
inductive Kind
  | success
  | exit
  | error
  | verdict
  | unsupported
  | string
  | value
  | continuedExecution
  deriving DecidableEq, Inhabited

/-- The word for a kind. -/
def Kind.word : Kind → String
  | .success => "success"
  | .exit => "exit"
  | .error => "error"
  | .verdict => "verdict"
  | .unsupported => "unsupported"
  | .string => "string"
  | .value => "value"
  | .continuedExecution => "continued-execution"

/-- The kind that a word stands for. -/
def Kind.ofWord? (word : String) : Option Kind :=
  [Kind.success, .exit, .error, .verdict, .unsupported, .string, .value,
    .continuedExecution].find? fun k => k.word == word

end Response

/-- The result of one command. -/
structure Response where
  kind : Response.Kind
  /-- The word of a verdict, or the text of a string or a value. -/
  value : Option String := none
  /-- Why an error arose. -/
  message : Option String := none
  /-- What an error is blamed on. -/
  pos : Option Pos := none
  deriving DecidableEq, Inhabited

namespace Response

def success : Response := { kind := .success }

/-- The success of a command that ends the session. -/
def successExit : Response := { kind := .exit }

def error (message : String) (pos : Option Pos) : Response :=
  { kind := .error, message := some message, pos := pos }

def verdict (v : Verdict) : Response := { kind := .verdict, value := some v.word }

def unsupported : Response := { kind := .unsupported }

def string (text : String) : Response := { kind := .string, value := some text }

def ofValue (text : String) : Response := { kind := .value, value := some text }

def continuedExecution : Response := { kind := .continuedExecution }

/-- A success, also one that ends the session. -/
def isOk (r : Response) : Bool :=
  r.kind = .success || r.kind = .exit

def isError (r : Response) : Bool :=
  r.kind = .error

/-- The printed form. -/
def text (r : Response) : String :=
  match r.kind with
  | .success | .exit => "success"
  | .error => "(error " ++ Text.Quoted.encode (r.message.getD "") ++ ")"
  | .verdict => r.value.getD ""
  | .string => Text.Quoted.encode (r.value.getD "")
  | .value => r.value.getD ""
  | .unsupported | .continuedExecution => r.kind.word

end Response

end SmtSession
