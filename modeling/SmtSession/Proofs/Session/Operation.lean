import SmtSession.Session

/-!
# What an operation asks for

**An operation** is known before it is carried out: the request that it is
when it takes one wire at most (`request?`), the rule that it violates in a
state (`violation?`), and the node of its payload that has no spelling
(`refusal?`). `perform_of_request` says that an operation with a request is
nothing but that request carried out.
-/

namespace SmtSession

/-- Moving scopes changes the depth and, if any moved, forgets the verdict. -/
theorem State.moveScopes_eq (s : State) (delta : Int) :
    s.moveScopes delta = { s with
      scopeDepth := s.scopeDepth + delta
      lastVerdict := if delta = 0 then s.lastVerdict else none } := by
  unfold State.moveScopes
  by_cases still : delta = 0
  · rw [if_pos still, if_pos still, still, Int.add_zero]
  · rw [if_neg still, if_neg still]

namespace Session

/-- The request of an operation that is not checked against the state. -/
def Operation.request? (b : Backend) : Operation → Option Request
  | .assert t => some {
      command := "assert"
      wire := some <$> b.assertWire t
      accept := fun _ s => s.forgetVerdict
      respond := fun _ => .success }
  | .checkSat => some {
      command := "check-sat"
      wire := .ok (some Backend.checkWire)
      accept := fun reply s => s.remember (b.verdictOf reply)
      respond := fun reply => .verdict (b.verdictOf reply) }
  | .declareFun name args result =>
    some (acknowledged "declare-fun" (some <$> b.declareWire name args result))
  | .declareConst name sort =>
    some (acknowledged "declare-const" (some <$> b.declareWire name [] sort))
  | .defineFun name parameters result body =>
    some (acknowledged "define-fun" (b.ifDefinitions (b.defineWire name parameters result body)))
  | .declareSort name arity =>
    some (acknowledged "declare-sort" (b.ifDefinitions (b.declareSortWire name arity)))
  | .defineSort name parameters definition =>
    some (acknowledged "define-sort"
      (b.ifDefinitions (b.defineSortWire name parameters definition)))
  | .getValue terms => some {
      command := "get-value"
      wire := some <$> b.valueWire terms
      accept := fun _ s => s
      respond := fun reply => .ofValue (Text.strip (b.withoutPrompt reply)) }
  | .getProof => some (forwarded "get-proof" Backend.proofWire)
  | .getUnsatCore => some (forwarded "get-unsat-core" Backend.unsatCoreWire)
  | .getAssignment => some (forwarded "get-assignment" Backend.assignmentWire)
  | _ => none

/-- The request that resets the engine for another logic. -/
def resetRequest (logic : Symbol) : Request where
  command := "set-logic"
  wire := .ok (some Backend.resetWire)
  pos := logic.pos
  accept := fun _ s => s.afterReset.withLogic logic.name
  respond := fun _ => .success

/-- An operation with a request is that request carried out. -/
theorem perform_of_request (setup : Setup σ) {op : Operation} {r : Request}
    (h : op.request? setup.backend = some r) : perform setup op = carryOut setup r := by
  cases op <;> cases h <;> rfl

/-- A request changes nothing but the verdict. -/
theorem accept_eq {b : Backend} {op : Operation} {r : Request} (is : op.request? b = some r)
    (reply : String) (s : State) : ∃ v, r.accept reply s = { s with lastVerdict := v } := by
  cases op <;> cases is <;> exact ⟨_, rfl⟩

/-- The rule that an operation violates in a state. An option is checked once
its value has a text. -/
def Operation.violation? (relaxed : Bool) (s : State) : Operation → Option State.Violation
  | .start => s.checkStart
  | .push count => State.checkPush count
  | .pop count => s.checkPop count
  | .setLogic logic => s.checkSetLogic logic.name relaxed
  | .setOption key value =>
    match value.text with
    | .ok text => s.checkSetOption key.name text
    | .error _ => none
  | .setInfo key _ => State.checkSetInfo key.name
  | _ => none

/-- The error of a spelling that failed. -/
def refusalOf : Except Dialect.Error α → Option Dialect.Error
  | .ok _ => none
  | .error e => some e

/-- Why the payload of an operation has no spelling, if it has none. -/
def Operation.refusal? (b : Backend) : Operation → Option Dialect.Error
  | .setOption _ value => refusalOf value.text
  | .setInfo _ value => refusalOf value.text
  | op => (op.request? b).bind fun r => refusalOf r.wire

/-- The position that a violated rule is blamed on. -/
def Operation.pos : Operation → Option Pos
  | .setLogic logic => logic.pos
  | .setOption key _ => key.pos
  | .setInfo key _ => key.pos
  | _ => none

end Session

end SmtSession
