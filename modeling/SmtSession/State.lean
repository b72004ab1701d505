import SmtSession.Logic
import SmtSession.OptionRules
import SmtSession.Response
import SmtSession.Text.Digit

/-!
# The state of a session

**The state** is what the session remembers between commands. A command is
checked against it before anything is sent; the checks read the state and do
not change it. `Violation` has the reasons for which a check fails.
-/

namespace SmtSession

/-- What a session remembers between commands. -/
structure State where
  started : Bool := false
  terminated : Bool := false
  /-- Whether a logic has been set. -/
  logicFixed : Bool := false
  /-- The logic, as it was written when it was set. -/
  logic : Option String := none
  /-- The number of open assertion scopes. -/
  scopeDepth : Int := 0
  /-- The verdict of the last check, as long as it holds. -/
  lastVerdict : Option Verdict := none
  /-- The options, as rendered text. -/
  options : Table := OptionRules.defaults
  /-- What was set as information, as rendered text. -/
  info : Table := Table.empty
  deriving DecidableEq, Inhabited

namespace State

/-- Why a command is not carried out. -/
inductive Violation
  | alreadyStarted
  | logicAlreadySet
  | unknownLogic (name : String)
  | negativeCount (command : String) (count : Int)
  | tooManyPops (count depth : Int)
  | notABoolean (key : String)
  | notANumeral (key : String)
  | tooLate (key : String)
  | predefined (key : String)
  deriving DecidableEq, Inhabited

/-- The message of a violation. -/
def Violation.message : Violation → String
  | .alreadyStarted => "The solver has already been started"
  | .logicAlreadySet => "Logic is already set"
  | .unknownLogic name => "Unknown logic: " ++ name
  | .negativeCount command count =>
    "The argument to a " ++ command ++ " command must be non-negative: " ++ toString count
  | .tooManyPops count depth =>
    "The argument to a pop command is too large: " ++ toString count ++ " vs. a maximum of "
      ++ toString depth
  | .notABoolean key => "The value of the " ++ key ++ " option must be 'true' or 'false'"
  | .notANumeral key => "The value of the " ++ key ++ " option must be a numeral"
  | .tooLate key =>
    "The value of the " ++ key ++ " option must be set before the set-logic command"
  | .predefined key =>
    "Setting the value of a pre-defined keyword is not permitted: " ++ key

variable (s : State)

/-- A session starts once. -/
def checkStart : Option Violation :=
  if s.started then some .alreadyStarted else none

/-- A logic is set once, unless that rule is relaxed, and must be known. -/
def checkSetLogic (name : String) (relaxed : Bool) : Option Violation :=
  if s.logicFixed && !relaxed then some .logicAlreadySet
  else if Logic.isKnown name then none
  else some (.unknownLogic name)

/-- A number of scopes to open is not negative. -/
def checkPush (count : Int) : Option Violation :=
  if count < 0 then some (.negativeCount "push" count) else none

/-- A number of scopes to close is not negative, and that many are open. -/
def checkPop (count : Int) : Option Violation :=
  if count < 0 then some (.negativeCount "pop" count)
  else if count > s.scopeDepth then some (.tooManyPops count s.scopeDepth)
  else none

/-- An option value keeps to the rules of its key. Once the logic is fixed, an
option that must be set before can only be set to the value it has. -/
def checkSetOption (key text : String) : Option Violation :=
  if key ∈ OptionRules.booleans ∧ text ≠ "true" ∧ text ≠ "false" then some (.notABoolean key)
  else if key ∈ OptionRules.numerals ∧ !Text.isDigits text then some (.notANumeral key)
  else if key ∈ OptionRules.initials ∧ s.logicFixed ∧ s.options.get? key ≠ some text then
    some (.tooLate key)
  else none

/-- Predefined information cannot be set. -/
def checkSetInfo (key : String) : Option Violation :=
  if key ∈ OptionRules.predefinedInfo then some (.predefined key) else none

/-! ## Changes -/

/-- The state once a verdict holds. -/
def remember (v : Verdict) : State :=
  { s with lastVerdict := some v }

/-- The state once the assertions changed: no verdict holds any more. -/
def forgetVerdict : State :=
  { s with lastVerdict := none }

/-- The state after a number of scopes was opened, or closed if it is
negative. -/
def moveScopes (delta : Int) : State :=
  if delta = 0 then s
  else { s with scopeDepth := s.scopeDepth + delta, lastVerdict := none }

/-- The state after the engine was reset. -/
def afterReset : State :=
  { s with scopeDepth := 0, lastVerdict := none }

/-- The state with a logic. -/
def withLogic (name : String) : State :=
  { s with logicFixed := true, logic := some name }

/-- The state with an option set, when the rules allow it. -/
def setOption (key text : String) : Except Violation State :=
  match s.checkSetOption key text with
  | some v => .error v
  | none => .ok { s with options := s.options.set key text }

/-- The state with a piece of information set. -/
def setInfo (key text : String) : State :=
  { s with info := s.info.set key text }

end State

end SmtSession
