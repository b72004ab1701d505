import SmtSession.Decimal.Binary64
import SmtSession.State
import SmtSession.Text.Blank
import SmtSession.Text.Display

/-!
# Option bundles

**A bundle** is what a caller asks for when a session is made: a few named
settings of any type, and a list of options with their values. The settings
are checked one after the other; then the options are set in the state of the
new session, first those that the named settings stand for and then the
listed ones, under the same rules as any later change.
-/

namespace SmtSession

/-- A value that a caller can give for a setting. -/
inductive Bundle.Value
  | null
  | bool (value : Bool)
  | int (value : Int)
  | real (value : Decimal)
  | text (text : String)
  | list (items : List Bundle.Value)
  | dict (entries : List (String × Bundle.Value))

namespace Bundle.Value

instance : Inhabited Value := ⟨.null⟩

/-- Whether a value counts as true: what is not nothing, zero or empty. -/
def truthy : Value → Bool
  | .null => false
  | .bool b => b
  | .int n => n != 0
  | .real d => d.mantissa != 0
  | .text t => !t.isEmpty
  | .list items => !items.isEmpty
  | .dict entries => !entries.isEmpty

mutual

/-- A value as it is shown inside a list. -/
def shown : Value → String
  | .null => "None"
  | .bool b => if b then "True" else "False"
  | .int n => toString n
  | .real d => d.floatText
  | .text t => Text.display t
  | .list items => "[" ++ String.intercalate ", " (shownAll items) ++ "]"
  | .dict entries => "\x7b" ++ String.intercalate ", " (shownEntries entries) ++ "\x7d"

def shownAll : List Value → List String
  | [] => []
  | v :: vs => shown v :: shownAll vs

def shownEntries : List (String × Value) → List String
  | [] => []
  | (k, v) :: es => (Text.display k ++ ": " ++ shown v) :: shownEntries es

end

/-- A value as text; a text is itself. -/
def toText : Value → String
  | .text t => t
  | v => v.shown

/-- A truth value, or one of the numbers zero and one. -/
def isTruth : Value → Bool
  | .bool _ => true
  | .int n => n = 0 || n = 1
  | .real d => d.mantissa = 0 || (!d.negative && d.fraction.1 = d.fraction.2)
  | _ => false

/-- What a value gives when it is gone through: the items of a list, the characters of a text,
the keys of a dictionary. -/
def elements? : Value → Option (List Value)
  | .list items => some items
  | .text t => some (t.toList.map fun c => .text (String.singleton c))
  | .dict entries => some (entries.map fun (k, _) => .text k)
  | _ => none

/-- The text of what can be a key; lists and dictionaries cannot. -/
def key? : Value → Option String
  | .list _ => none
  | .dict _ => none
  | v => some v.toText

/-- The key and the value of a pair: of what has two elements. -/
def pair? (v : Value) : Option (String × Value) :=
  match v.elements? with
  | some [k, v] => k.key?.map fun key => (key, v)
  | _ => none

/-- The pairs of what makes a dictionary: one that is there already, or else elements that are
pairs. Nothing stands for the empty dictionary. -/
def pairs? : Value → Option (List (String × Value))
  | .null => some []
  | .dict entries => some entries
  | v => v.elements?.bind fun elements => elements.mapM pair?

end Bundle.Value

/-- What a caller asks for when a session is made. -/
structure Bundle where
  relax : Bundle.Value := .bool false
  verbose : Bundle.Value := .int 0
  produceProofs : Bundle.Value := .bool false
  produceUnsatCores : Bundle.Value := .bool false
  produceAssignments : Bundle.Value := .bool false
  generateModels : Bundle.Value := .bool true
  incremental : Bundle.Value := .bool true
  unsatCoresMode : Bundle.Value := .null
  randomSeed : Bundle.Value := .null
  solverOptions : Bundle.Value := .null

namespace Bundle

/-- Why no session can be made. -/
inductive Error
  /-- A setting has a value of the wrong type. -/
  | invalid (setting value : String)
  | coresUnsupported
  /-- An option breaks a rule. -/
  | rejected (key text : String) (violation : State.Violation)
  deriving DecidableEq, Inhabited

/-- The message of an error. -/
def Error.message : Error → String
  | .invalid setting value => "Invalid value " ++ value ++ " for '" ++ setting ++ "'"
  | .coresUnsupported => "'unsat_cores_mode' option not supported."
  | .rejected key text violation =>
    "Invalid value " ++ text ++ " for " ++ key ++ ": " ++ violation.message

variable (b : Bundle)

/-- Refuses a setting unless it has a value of the right type. -/
def require (ok : Bool) (setting : String) (value : Value) : Except Error Unit :=
  if ok then .ok () else .error (.invalid setting value.toText)

/-- A mode for unsatisfiable cores, or none. -/
def isCoresMode : Value → Bool
  | .null => true
  | .text t => t = "named" || t = "all"
  | _ => false

/-- A seed, or none. -/
def isSeed : Value → Bool
  | .null => true
  | .int _ => true
  | _ => false

/-- The listed options, each key once with its last value, without the one
that is meant for the caller's side of the conversation. -/
def listed (entries : List (String × Value)) : List (String × String) :=
  (Table.empty.setAll (entries.map fun (k, v) => (k, v.toText))).entries.filter fun (k, _) =>
    k != "debug_interaction"

/-- The options to set, in order. -/
def options : Except Error (List (String × String)) := do
  require b.generateModels.isTruth "generate_models" b.generateModels
  require b.incremental.isTruth "incremental" b.incremental
  require (isCoresMode b.unsatCoresMode) "unsat_cores_mode" b.unsatCoresMode
  require (isSeed b.randomSeed) "random_seed" b.randomSeed
  require b.solverOptions.pairs?.isSome "solver_options" b.solverOptions
  match b.unsatCoresMode with
  | .null => pure ()
  | _ => throw .coresUnsupported
  let flag (v : Value) := OptionRules.flag v.truthy
  let seed := match b.randomSeed with
    | .null => []
    | v => [(":random-seed", v.toText)]
  pure ((":produce-models", flag b.generateModels) :: seed
    ++ [(":produce-proofs", flag b.produceProofs),
        (":produce-unsat-cores", flag b.produceUnsatCores),
        (":produce-assignments", flag b.produceAssignments)]
    ++ listed (b.solverOptions.pairs?.getD []))

/-- Sets options one after the other. -/
def setOptions (s : State) : List (String × String) → Except Error State
  | [] => .ok s
  | (key, text) :: rest =>
    match s.setOption key text with
    | .error v => .error (.rejected key text v)
    | .ok s => setOptions s rest

/-- The state of a new session. -/
def initialState : Except Error State := do
  setOptions {} (← b.options)

end Bundle

end SmtSession
