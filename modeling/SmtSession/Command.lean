import SmtSession.Term

/-!
# Commands

**A command** is one request of a script, with its arguments as they were
written. `Command.name` gives the word it is asked by.
-/

namespace SmtSession

/-- What can be handed to `set-option` or `set-info` as the value. -/
inductive Setting
  /-- No value: the key is switched on. -/
  | absent
  | flag (on : Bool)
  | number (value : Int)
  /-- A text that is already rendered. -/
  | verbatim (text : String)
  | term (term : Term)
  deriving Inhabited

/-- A command of a script. -/
inductive Command
  | setLogic (logic : Symbol)
  | setOption (key : Keyword) (value : Setting)
  | getOption (key : Keyword)
  | setInfo (key : Keyword) (value : Setting)
  | getInfo (key : Keyword)
  | declareFun (name : Symbol) (args : List SmtSort) (result : SmtSort)
  | declareConst (name : Symbol) (sort : SmtSort)
  | defineFun (name : Symbol) (parameters : List Declaration) (result : SmtSort) (body : Term)
  | declareSort (name : Symbol) (arity : Int)
  | defineSort (name : Symbol) (parameters : List Symbol) (definition : SmtSort)
  | assert (term : Term)
  | push (count : Int)
  | pop (count : Int)
  | checkSat
  | getValue (terms : List Term)
  | getProof
  | getUnsatCore
  | getAssignment
  | exit
  | echo (message : Term)
  | getModel
  | getAssertions
  | reset
  | resetAssertions
  /-- A command of any other name. -/
  | other (name : String)
  deriving Inhabited

/-- The word that asks for the command. -/
def Command.name : Command → String
  | .setLogic _ => "set-logic"
  | .setOption _ _ => "set-option"
  | .getOption _ => "get-option"
  | .setInfo _ _ => "set-info"
  | .getInfo _ => "get-info"
  | .declareFun _ _ _ => "declare-fun"
  | .declareConst _ _ => "declare-const"
  | .defineFun _ _ _ _ => "define-fun"
  | .declareSort _ _ => "declare-sort"
  | .defineSort _ _ _ => "define-sort"
  | .assert _ => "assert"
  | .push _ => "push"
  | .pop _ => "pop"
  | .checkSat => "check-sat"
  | .getValue _ => "get-value"
  | .getProof => "get-proof"
  | .getUnsatCore => "get-unsat-core"
  | .getAssignment => "get-assignment"
  | .exit => "exit"
  | .echo _ => "echo"
  | .getModel => "get-model"
  | .getAssertions => "get-assertions"
  | .reset => "reset"
  | .resetAssertions => "reset-assertions"
  | .other name => name

end SmtSession
