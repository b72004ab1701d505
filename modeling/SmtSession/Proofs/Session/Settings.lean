import SmtSession.Proofs.Session.Conduct

/-!
# What an operation sets

**Three operations set something** that stays until it is set again: the logic, an option,
and a piece of information. `Settles` has one case for each of them that succeeds, with the
check that it passed, and one case for everything else: the depth and the verdict may
change, the session may begin or end, and what was set stays.

`Conduct.settles` reads this off the ways an operation can go. What holds of the logic, the
options and the information of all sessions is read off `Settles`.
-/

namespace SmtSession

open Transport (Use)

namespace Session

/-- The operation sets something that stays. -/
def Operation.isSetting : Operation → Bool
  | .setLogic _ | .setOption _ _ | .setInfo _ _ => true
  | _ => false

/-- How an operation with its answer changes what is set in a state. -/
inductive Settles (relaxed : Bool) (s : State) : Operation → Answer → State → Prop
  | logic {logic : Symbol} {depth : Int} {verdict : Option Verdict}
      (check : s.checkSetLogic logic.name relaxed = none) :
      Settles relaxed s (.setLogic logic) (.ok .success)
        { s with
          logicFixed := true
          logic := some logic.name
          scopeDepth := depth
          lastVerdict := verdict }
  | option {key : Keyword} {value : Setting} {text : String} (spelled : value.text = .ok text)
      (check : s.checkSetOption key.name text = none) :
      Settles relaxed s (.setOption key value) (.ok .success)
        { s with options := s.options.set key.name text }
  | info {key : Keyword} {value : Setting} {text : String} (spelled : value.text = .ok text)
      (check : State.checkSetInfo key.name = none) :
      Settles relaxed s (.setInfo key value) (.ok .success) (s.setInfo key.name text)
  | nothing {op : Operation} {answer : Answer} {s' : State} (started terminated : Bool)
      (depth : Int) (verdict : Option Verdict)
      (idle : op.isSetting = true → ∀ r, answer = .ok r → r.isOk = false)
      (same : s' = { s with
        started := started
        terminated := terminated
        scopeDepth := depth
        lastVerdict := verdict }) :
      Settles relaxed s op answer s'

namespace Settles

variable {relaxed : Bool} {s : State} {op : Operation} {answer : Answer}

/-- What is no success leaves the state as it was. -/
theorem still (idle : op.isSetting = true → ∀ r, answer = .ok r → r.isOk = false) :
    Settles relaxed s op answer s :=
  .nothing s.started s.terminated s.scopeDepth s.lastVerdict idle rfl

/-- What is no setting changes the depth and the verdict at most. -/
theorem unset {s' : State} (other : op.isSetting = false) (depth : Int)
    (verdict : Option Verdict)
    (same : s' = { s with scopeDepth := depth, lastVerdict := verdict }) :
    Settles relaxed s op answer s' :=
  .nothing s.started s.terminated depth verdict (fun is => by rw [other] at is; cases is) same

end Settles

/-- A request sets nothing. -/
theorem isSetting_of_request {b : Backend} {op : Operation} {r : Request}
    (is : op.request? b = some r) : op.isSetting = false := by
  cases op with
  | setLogic | setOption | setInfo => cases is
  | _ => rfl

/-- A failure is no success. -/
theorem isOk_response (b : Backend) (failure : Failure) (command : String) (pos : Option Pos) :
    (failure.response b command pos).isOk = false := by
  cases failure <;> rfl

/-- **Every way an operation can go settles something or nothing.** -/
theorem Conduct.settles {b : Backend} {relaxed : Bool} {s s' : State} {op : Operation}
    {us : List Use} {answer : Answer} (conduct : Conduct b relaxed s op us answer s') :
    Settles relaxed s op answer s' := by
  have unanswered {op : Operation} {part : Dialect.Part} :
      op.isSetting = true → ∀ r, (.error part : Answer) = .ok r → r.isOk = false := nofun
  cases conduct with
  | violated => exact .still fun _ r is => by cases is; rfl
  | request is carried =>
    have other := isSetting_of_request is
    cases carried with
    | misplaced | refused | unsent | failed => exact .unset other _ _ rfl
    | @acknowledged _ reply =>
      obtain ⟨verdict, accepted⟩ := accept_eq is reply s
      exact .unset other s.scopeDepth verdict accepted
  | started => exact .nothing true s.terminated s.scopeDepth s.lastVerdict nofun rfl
  | endedUnsent | endedWithError | ended =>
    exact .nothing s.started true s.scopeDepth s.lastVerdict nofun rfl
  | notStarted | notEnded | optionAnswered | infoAnswered => exact .unset rfl _ _ rfl
  | pushed | popped => exact .unset rfl _ _ (State.moveScopes_eq _ _)
  | logicSet check free => exact .logic check
  | logicReset check fixed carried =>
    cases carried with
    | misplaced wire | refused wire | unsent wire => cases wire
    | failed spelled read => exact .still fun _ r is => by cases is; exact isOk_response _ _ _ _
    | acknowledged spelled read => exact .logic check
  | optionMisplaced | infoMisplaced => exact .still unanswered
  | optionRefused | infoRefused => exact .still fun _ r is => by cases is; rfl
  | optionSet spelled check => exact .option spelled check
  | infoSet check spelled => exact .info spelled check

end Session

end SmtSession
