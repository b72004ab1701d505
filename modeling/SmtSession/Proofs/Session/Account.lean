import SmtSession.Proofs.Session.Runs
import SmtSession.Proofs.Session.Wires

/-!
# The account of the acknowledgements

**The account** of some uses of a transport is what the acknowledged wires among
them amount to: how many scopes they left open since the engine was reset, and
the verdict that still holds. It is computed from the uses alone.

`account_reached` says that a session knows exactly this, over every transport and
after any operations. One step is `Conduct.account`: each way an operation can go
changes the state as its uses change the account. That no scope is closed which is
not open is a second invariant, `Conduct.natural`, since the account of arbitrary
uses can be overdrawn.
-/

namespace SmtSession

open Transport (Use)

/-! ## Accounts -/

/-- What acknowledged wires amount to. -/
structure Account where
  /-- The scopes opened, less those closed, since the engine was reset. -/
  depth : Int := 0
  /-- The verdict of a check, up to the next change of the assertions. -/
  verdict : Option Verdict := none

namespace Account

/-- The account after one more use. Only an acknowledged wire counts. -/
def enter (b : Backend) (a : Account) : Use → Account
  | .exchange wire (.ok reply) =>
    if b.reportsError reply then a
    else if wire = Backend.resetWire then {}
    else if wire = Backend.pushWire then { depth := a.depth + 1 }
    else if wire = Backend.popWire then { depth := a.depth - 1 }
    else if wire = Backend.checkWire then { a with verdict := some (b.verdictOf reply) }
    else if Backend.isAssertion wire then { a with verdict := none }
    else a
  | _ => a

/-- The account of some uses, from the beginning. -/
def of (b : Backend) (us : List Use) : Account :=
  us.foldl (enter b) {}

variable {b : Backend} {wire reply : String}

/-- A wire that failed does not count. -/
theorem enter_of_failed {outcome : Except Fault String} {failure : Session.Failure} (a : Account)
    (read : Session.reading b outcome = .error failure) :
    a.enter b (.exchange wire outcome) = a := by
  cases outcome with
  | error f => rfl
  | ok reply =>
    cases marked : b.reportsError reply with
    | true => rw [enter, if_pos marked]
    | false => rw [Session.reading_of_clean marked] at read; cases read

variable (clean : b.reportsError reply = false) (a : Account)

include clean

theorem enter_push :
    a.enter b (.exchange Backend.pushWire (.ok reply)) = { depth := a.depth + 1 } := by
  simp only [enter, clean]
  rfl

theorem enter_pop :
    a.enter b (.exchange Backend.popWire (.ok reply)) = { depth := a.depth - 1 } := by
  simp only [enter, clean]
  rfl

theorem enter_reset : a.enter b (.exchange Backend.resetWire (.ok reply)) = {} := by
  simp only [enter, clean]
  rfl

theorem enter_check : a.enter b (.exchange Backend.checkWire (.ok reply)) =
    { a with verdict := some (b.verdictOf reply) } := by
  simp only [enter, clean]
  rfl

/-- Of the wires with a letter of their own only assertions count. -/
theorem enter_other (letter : Backend.letter? wire ∉ [some 'p', some 'r', some 'c']) :
    a.enter b (.exchange wire (.ok reply)) =
      if Backend.isAssertion wire then { a with verdict := none } else a := by
  have apart {fixed : String} (is : Backend.letter? fixed ∈ [some 'p', some 'r', some 'c']) :
      wire ≠ fixed := fun same => letter (same ▸ is)
  rw [enter, clean, if_neg (apart (by decide)), if_neg (apart (by decide)),
    if_neg (apart (by decide)), if_neg (apart (by decide))]
  rfl

end Account

/-- What a state knows of its account. -/
def State.account (s : State) : Account where
  depth := s.scopeDepth
  verdict := s.lastVerdict

namespace Session

variable {b : Backend} {relaxed : Bool} {s s' : State} {op : Operation} {r : Request}
  {us : List Use} {answer : Answer}

/-! ## One step -/

/-- What is sent for a request asserts a term, checks, or changes nothing that
the account knows of. -/
theorem sent_of_request {wire : String} (is : op.request? b = some r)
    (sent : r.wire = .ok (some wire)) :
    (Backend.isAssertion wire = true ∧ ∀ reply s, r.accept reply s = s.forgetVerdict) ∨
      (wire = Backend.checkWire ∧ ∀ reply s, r.accept reply s = s.remember (b.verdictOf reply)) ∨
      ((Backend.letter? wire = some 'd' ∨ Backend.letter? wire = some 'g') ∧
        ∀ reply s, r.accept reply s = s) := by
  have defines {spelling : Except Dialect.Error String} (spelled : spelling = .ok wire)
      (is : ∀ {wire}, spelling = .ok wire → Backend.Defines wire) :
      Backend.letter? wire = some 'd' ∨ Backend.letter? wire = some 'g' := by
    obtain ⟨kind, e, es, rfl⟩ := is spelled
    have first : ("define" ++ kind).toList.head? = some 'd' := by
      rw [String.toList_append]
      rfl
    exact .inl (Backend.letter?_call first (e :: es))
  cases op with
  | assert t =>
    cases is
    obtain ⟨_, spelled, same⟩ := Dialect.map_eq_ok.mp sent
    cases same
    exact .inl ⟨Backend.isAssertion_assertWire b spelled, fun _ _ => rfl⟩
  | checkSat =>
    cases is
    cases sent
    exact .inr (.inl ⟨rfl, fun _ _ => rfl⟩)
  | declareFun name args result =>
    cases is
    obtain ⟨_, spelled, same⟩ := Dialect.map_eq_ok.mp sent
    cases same
    exact .inr (.inr ⟨defines spelled (Backend.declareWire_defines b), fun _ _ => rfl⟩)
  | declareConst name sort =>
    cases is
    obtain ⟨_, spelled, same⟩ := Dialect.map_eq_ok.mp sent
    cases same
    exact .inr (.inr ⟨defines spelled (Backend.declareWire_defines b), fun _ _ => rfl⟩)
  | defineFun name parameters result body =>
    cases is
    have spelled := Backend.ifDefinitions_eq_some b sent
    exact .inr (.inr ⟨defines spelled (Backend.defineWire_defines b), fun _ _ => rfl⟩)
  | declareSort name arity =>
    cases is
    have spelled := Backend.ifDefinitions_eq_some b sent
    exact .inr (.inr ⟨defines spelled (Backend.declareSortWire_defines b), fun _ _ => rfl⟩)
  | defineSort name parameters definition =>
    cases is
    have spelled := Backend.ifDefinitions_eq_some b sent
    exact .inr (.inr ⟨defines spelled (Backend.defineSortWire_defines b), fun _ _ => rfl⟩)
  | getValue terms =>
    cases is
    obtain ⟨_, spelled, same⟩ := Dialect.map_eq_ok.mp sent
    cases same
    obtain ⟨es, rfl⟩ := Backend.valueWire_asks b spelled
    have first : "get-value".toList.head? = some 'g' := rfl
    exact .inr (.inr ⟨.inr (Backend.letter?_call first es), fun _ _ => rfl⟩)
  | getProof | getUnsatCore | getAssignment =>
    cases is
    cases sent
    exact .inr (.inr ⟨by decide, fun _ _ => rfl⟩)
  | start | exit | push | pop | setLogic | setOption | getOption | setInfo | getInfo => cases is

/-- An acknowledged request changes the state as its wire changes the account. -/
theorem account_of_request {wire reply : String} (is : op.request? b = some r)
    (sent : r.wire = .ok (some wire)) (clean : b.reportsError reply = false) (s : State) :
    (r.accept reply s).account = s.account.enter b (.exchange wire (.ok reply)) := by
  obtain ⟨asserts, accept⟩ | ⟨rfl, accept⟩ | ⟨letter, accept⟩ := sent_of_request is sent
  · have letter : Backend.letter? wire ∉ [some 'p', some 'r', some 'c'] := by
      rw [Backend.letter?_of_isAssertion asserts]
      decide
    rw [accept, Account.enter_other clean _ letter, if_pos asserts]
    rfl
  · rw [accept, Account.enter_check clean]
    rfl
  · have other : ¬ Backend.isAssertion wire = true := fun asserts => by
      have first := Backend.letter?_of_isAssertion asserts
      rcases letter with letter | letter <;> simp [first] at letter
    have apart : Backend.letter? wire ∉ [some 'p', some 'r', some 'c'] := by
      rcases letter with letter | letter <;> rw [letter] <;> decide
    rw [accept, Account.enter_other clean _ apart, if_neg other]

/-- A row of wires that each move the depth by one changes the account as the scopes
that it moved change the state. -/
theorem Row.account {wire : String} {n acknowledged : Nat} {failure : Option Failure}
    (row : Row b wire n us acknowledged failure)
    (sign : Int) (moves : ∀ a {reply}, b.reportsError reply = false →
      Account.enter b a (.exchange wire (.ok reply)) = { depth := a.depth + sign }) (a : Account) :
    us.foldl (Account.enter b) a = {
      depth := a.depth + sign * acknowledged
      verdict := if acknowledged = 0 then a.verdict else none } := by
  induction row generalizing a with
  | done => simp
  | stopped read => simp [Account.enter_of_failed a read]
  | went read rest ih =>
    rw [List.foldl_cons, ih, moves a read]
    simp only [Account.mk.injEq, Nat.succ_ne_zero, if_false, ite_self, and_true]
    rw [Int.natCast_add, Int.mul_add]
    omega

/-- **The state keeps the account**, in whichever way an operation goes. -/
theorem Conduct.account (conduct : Conduct b relaxed s op us answer s') :
    s'.account = us.foldl (Account.enter b) s.account := by
  cases conduct with
  | request is carried =>
    cases carried with
    | misplaced | refused | unsent => rfl
    | failed spelled read => exact (Account.enter_of_failed _ read).symm
    | acknowledged spelled read => exact account_of_request is spelled read s
  | pushed check row =>
    rw [row.account 1 (fun a _ clean => Account.enter_push clean a), State.moveScopes_eq]
    simp [State.account]
  | popped check row =>
    rw [row.account (-1) (fun a _ clean => Account.enter_pop clean a), State.moveScopes_eq]
    simp [State.account]
  | logicReset check fixed carried =>
    cases carried with
    | misplaced wire | refused wire | unsent wire => cases wire
    | failed spelled read => exact (Account.enter_of_failed _ read).symm
    | acknowledged spelled read =>
      cases spelled
      exact (Account.enter_reset read _).symm
  | violated | started | notStarted | notEnded | endedUnsent | endedWithError | ended | logicSet
  | optionMisplaced | optionRefused | optionSet | infoMisplaced | infoRefused | infoSet
  | optionAnswered | infoAnswered => rfl

/-- No more wires of a row are acknowledged than are asked for. -/
theorem Row.acknowledged_le {wire : String} {n acknowledged : Nat} {failure : Option Failure}
    (row : Row b wire n us acknowledged failure) : acknowledged ≤ n := by
  induction row with
  | done => exact Nat.le_refl 0
  | stopped => exact Nat.zero_le _
  | went _ _ ih => exact Nat.succ_le_succ ih

/-- A number of scopes that may be closed is a number, and as many are open. -/
theorem le_of_checkPop {count : Int} (check : s.checkPop count = none) :
    0 ≤ count ∧ count ≤ s.scopeDepth := by
  unfold State.checkPop at check
  split at check
  · cases check
  · split at check
    · cases check
    · omega

/-- **No more scopes are closed than are open.** -/
theorem Conduct.natural (conduct : Conduct b relaxed s op us answer s')
    (natural : 0 ≤ s.scopeDepth) : 0 ≤ s'.scopeDepth := by
  cases conduct with
  | request is carried =>
    cases carried with
    | misplaced | refused | unsent | failed => exact natural
    | acknowledged spelled read =>
      obtain ⟨-, accept⟩ | ⟨-, accept⟩ | ⟨-, accept⟩ := sent_of_request is spelled
      · rw [accept]
        exact natural
      · rw [accept]
        exact natural
      · rw [accept]
        exact natural
  | pushed check row =>
    rw [State.moveScopes_eq]
    show 0 ≤ s.scopeDepth + _
    omega
  | popped check row =>
    obtain ⟨_, enough⟩ := le_of_checkPop check
    have few := row.acknowledged_le
    rw [State.moveScopes_eq]
    show 0 ≤ s.scopeDepth + -_
    omega
  | logicReset check fixed carried =>
    cases carried with
    | misplaced | refused | unsent | failed => exact natural
    | acknowledged spelled read => exact Int.le_refl 0
  | violated | started | notStarted | notEnded | endedUnsent | endedWithError | ended | logicSet
  | optionMisplaced | optionRefused | optionSet | infoMisplaced | infoRefused | infoSet
  | optionAnswered | infoAnswered => exact natural

/-! ## All reachable states -/

/-- **A session knows the account of its acknowledgements**, over every transport and
after any operations, and the account is never overdrawn. -/
theorem account_reached {transport : Transport σ} {link : σ} {bundle : Bundle} {setup : Setup σ}
    {s : Session σ} (made : Session.create b transport link bundle = .ok (setup, s))
    (ops : List Operation) :
    (afterAll setup ops s).state.account = Account.of b (history setup ops s) ∧
      0 ≤ (afterAll setup ops s).state.scopeDepth := by
  obtain ⟨rfl, table, rfl⟩ := new_of_create made
  refine reached_of_conduct (P := fun us st => st.account = Account.of b us ∧ 0 ≤ st.scopeDepth)
    ?_ ⟨rfl, Int.le_refl 0⟩ ops
  intro past us op answer s s' ⟨known, natural⟩ conduct
  refine ⟨?_, conduct.natural natural⟩
  rw [conduct.account, known, Account.of, Account.of, List.foldl_append]

end Session

end SmtSession
