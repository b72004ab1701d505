import Mathlib.Data.List.DropRight
import SmtSession.Proofs.Session.Account
import SmtSession.Proofs.Session.Atomicity
import SmtSession.Transport.Scripted

/-!
# Scopes are counted by their acknowledgements

**The depth of a session** is the number of scopes that were opened since the last
reset, less those that were closed. Only wires that were acknowledged count, one by
one, so a call that stopped on the way counts for as far as it went.

`scopes_counted` says so of every session that is reached over any transport, and
says how a call goes there that opens or closes scopes: `ScopesMoved` for one that
passes its check, `Rejected` for one that does not. The depth is read off the account
of the acknowledgements; the calls are read off `Row`.
-/

namespace SmtSession

open Transport (Use)

/-! ## Counting -/

/-- The uses behind the last reset that was acknowledged, or all of them. -/
def Transport.Use.sinceReset (b : Backend) (us : List Use) : List Use :=
  us.rtakeWhile fun u => !u.acknowledges b Backend.resetWire

/-- The number of acknowledgements of a wire in front of the first failure. -/
def Transport.Use.acknowledgedFirst (b : Backend) (wire : String) (us : List Use) : Nat :=
  (us.takeWhile (Use.acknowledges b wire)).length

namespace Account

variable {b : Backend}

/-- What a use makes of the depth: nothing is left of it behind a reset, and a scope
more or less behind an opening or a closing. -/
theorem depth_enter (a : Account) (u : Use) : (a.enter b u).depth =
    if u.acknowledges b Backend.resetWire then 0
    else a.depth + (if u.acknowledges b Backend.pushWire then 1 else 0)
      - (if u.acknowledges b Backend.popWire then 1 else 0) := by
  cases u with
  | start | send | finish => simp [enter, Use.acknowledges]
  | exchange wire outcome =>
    cases outcome with
    | error f => simp [enter, Use.acknowledges]
    | ok reply =>
      have push_ne_reset : Backend.pushWire ≠ Backend.resetWire := by decide
      have pop_ne_reset : Backend.popWire ≠ Backend.resetWire := by decide
      have pop_ne_push : Backend.popWire ≠ Backend.pushWire := by decide
      cases marked : b.reportsError reply with
      | true => simp [enter, Use.acknowledges, marked]
      | false =>
        by_cases reset : wire = Backend.resetWire
        · subst reset
          simp [enter_reset marked, Use.acknowledges, marked]
        by_cases push : wire = Backend.pushWire
        · subst push
          simp [enter_push marked, Use.acknowledges, marked, push_ne_reset, pop_ne_push.symm]
        by_cases pop : wire = Backend.popWire
        · subst pop
          simp [enter_pop marked, Use.acknowledges, marked, pop_ne_reset, pop_ne_push]
        · have same : (a.enter b (.exchange wire (.ok reply))).depth = a.depth := by
            simp only [enter, marked, Bool.false_eq_true, if_false, if_neg reset, if_neg push,
              if_neg pop]
            split_ifs <;> rfl
          rw [same]
          simp [Use.acknowledges, reset, push, pop]

/-- **The depth of an account counts openings and closings since the last reset.** -/
theorem depth_of (us : List Use) : (Account.of b us).depth =
    (Use.sinceReset b us).countP (Use.acknowledges b Backend.pushWire)
      - (Use.sinceReset b us).countP (Use.acknowledges b Backend.popWire) := by
  induction us using List.reverseRecOn with
  | nil => rfl
  | append_singleton us u ih =>
    rw [Account.of, List.foldl_append]
    show (enter b (Account.of b us) u).depth = _
    rw [depth_enter, Use.sinceReset, List.rtakeWhile_concat]
    cases reset : u.acknowledges b Backend.resetWire with
    | true => rfl
    | false =>
      rw [ih, Use.sinceReset]
      simp only [Bool.not_false, Bool.false_eq_true, if_true, if_false, List.countP_append,
        List.countP_singleton]
      split_ifs <;> omega

end Account

namespace Session

variable {b : Backend} {setup : Setup σ} {s : Session σ}

/-! ## Calls that open or close scopes -/

/-- How a call goes that passes its check and asks for `n` scopes to be opened or
closed. `acknowledgedFirst` tells how far it went. -/
structure ScopesMoved (b : Backend) (command wire : String) (n : Int) (us : List Use)
    (answer : Answer) : Prop where
  /-- One wire is handed over for each scope, up to the first that fails. -/
  wires : ∃ outcomes : List (Except Fault String), us = outcomes.map (Use.exchange wire) ∧
    (outcomes.length : Int) = min n (Use.acknowledgedFirst b wire us + 1)
  /-- The call is a success when it went all the way. -/
  success : answer = .ok .success ↔ Use.acknowledgedFirst b wire us = n
  /-- Otherwise it is an error for the wire that failed. The message tells how many
  scopes were moved before, if any was. -/
  failure : Use.acknowledgedFirst b wire us ≠ n → ∃ outcome failure message,
    us[Use.acknowledgedFirst b wire us]? = some (.exchange wire outcome) ∧
      reading b outcome = .error failure ∧
      failure.response b command none = .error message none ∧
      answer = .ok (.error (if Use.acknowledgedFirst b wire us = 0 then message
        else message ++ " (" ++ (toString (Use.acknowledgedFirst b wire us) ++ " of " ++ toString n)
          ++ " acknowledged)") none)

/-- The operation breaks a rule, and nothing comes of it but the error that says so. -/
structure Rejected (setup : Setup σ) (s : Session σ) (op : Operation) (v : State.Violation) :
    Prop where
  silent : uses setup op s = []
  error : ((perform setup op).run s).1 = .ok (.error v.message op.pos)
  state : (after setup s op).state = s.state

/-- The failures of a transport and of an engine have a message and no position. -/
theorem exists_message {outcome : Except Fault String} {failure : Failure}
    (read : reading b outcome = .error failure) (command : String) :
    ∃ message, failure.response b command none = .error message none := by
  cases failure with
  | engine reply => exact ⟨_, rfl⟩
  | fault f => exact ⟨_, rfl⟩
  | refused cause pos =>
    cases outcome with
    | error f => cases read
    | ok reply =>
      cases marked : b.reportsError reply with
      | true => simp [reading, marked] at read
      | false => simp [reading, marked] at read

namespace Row

variable {wire : String} {n acknowledged : Nat} {us : List Use} {failure : Option Failure}

/-- A row is made of exchanges of its wire, one more than were acknowledged unless it
ended before. -/
theorem outcomes (row : Row b wire n us acknowledged failure) :
    ∃ outcomes : List (Except Fault String),
      us = outcomes.map (Use.exchange wire) ∧ outcomes.length = min n (acknowledged + 1) := by
  induction row with
  | done => exact ⟨[], rfl, rfl⟩
  | @stopped n outcome failure read => exact ⟨[outcome], rfl, by simp⟩
  | @went n acknowledged reply us failure read rest ih =>
    obtain ⟨outcomes, rfl, length⟩ := ih
    refine ⟨.ok reply :: outcomes, rfl, ?_⟩
    rw [List.length_cons, length]
    omega

/-- The acknowledgements of a row are all in front of its failure. -/
theorem acknowledgedFirst (row : Row b wire n us acknowledged failure) :
    Use.acknowledgedFirst b wire us = acknowledged := by
  induction row with
  | done => rfl
  | stopped read =>
    have stops : ¬ Use.acknowledges b wire (.exchange wire _) = true :=
      Bool.eq_false_iff.mp (not_acknowledges_of_failed read)
    rw [Use.acknowledgedFirst, List.takeWhile_cons_of_neg stops]
    rfl
  | went read _ ih =>
    rw [Use.acknowledgedFirst, List.takeWhile_cons_of_pos (acknowledges_of_clean read)]
    exact congrArg (· + 1) ih

/-- A failure is that of the wire behind the acknowledgements, and one was still to
come. -/
theorem failed {f : Failure} (row : Row b wire n us acknowledged failure)
    (stop : failure = some f) :
    acknowledged < n ∧ ∃ outcome,
      us[acknowledged]? = some (.exchange wire outcome) ∧ reading b outcome = .error f := by
  induction row with
  | done => cases stop
  | @stopped n outcome failure read =>
    cases stop
    exact ⟨Nat.succ_pos n, outcome, rfl, read⟩
  | went read rest ih =>
    obtain ⟨few, outcome, at?, reads⟩ := ih stop
    exact ⟨Nat.succ_lt_succ few, outcome, at?, reads⟩

/-- **A row of wires moves scopes** as its response says. -/
theorem scopesMoved {count : Int} (row : Row b wire count.toNat us acknowledged failure)
    (natural : 0 ≤ count) (command : String) :
    ScopesMoved b command wire count us
      (.ok (scopesResponse b command count acknowledged failure)) := by
  obtain ⟨outcomes, shape, length⟩ := row.outcomes
  have wires : (outcomes.length : Int) = min count (acknowledged + 1) := by omega
  cases failure with
  | none =>
    have all : (acknowledged : Int) = count := row.count_of_done rfl (by omega)
    refine ⟨⟨outcomes, shape, by rw [row.acknowledgedFirst, wires]⟩, ?_, ?_⟩
    · rw [row.acknowledgedFirst]
      exact ⟨fun _ => all, fun _ => rfl⟩
    · rw [row.acknowledgedFirst]
      exact fun less => absurd all less
  | some f =>
    obtain ⟨few, outcome, at?, read⟩ := row.failed rfl
    have less : (acknowledged : Int) ≠ count := by omega
    obtain ⟨message, response⟩ := exists_message read command
    have answer : scopesResponse b command count acknowledged (some f) =
        .error (if acknowledged = 0 then message
          else message ++ " (" ++ (toString acknowledged ++ " of " ++ toString count)
            ++ " acknowledged)") none := by
      simp only [scopesResponse, response]
      split
      · rfl
      · rfl
    refine ⟨⟨outcomes, shape, by rw [row.acknowledgedFirst, wires]⟩, ?_, ?_⟩
    · rw [row.acknowledgedFirst, answer]
      exact ⟨fun same => (by cases same), fun same => absurd same less⟩
    · rw [row.acknowledgedFirst, answer]
      exact fun _ => ⟨outcome, f, message, at?, read, response, rfl⟩

end Row

/-- An operation that breaks a rule can go in one way only. -/
theorem Conduct.of_violation {relaxed : Bool} {st st' : State} {op : Operation} {us : List Use}
    {answer : Answer} {v : State.Violation} (conduct : Conduct b relaxed st op us answer st')
    (broken : op.violation? relaxed st = some v) :
    us = [] ∧ answer = .ok (refuse v op.pos) ∧ st' = st := by
  cases conduct with
  | violated check =>
    rw [broken] at check
    cases check
    exact ⟨rfl, rfl, rfl⟩
  | request is carried =>
    rw [violation?_of_request is] at broken
    cases broken
  | started check | notStarted check | pushed check row | popped check row | logicSet check free
  | logicReset check fixed carried | infoMisplaced check text | infoRefused check text
  | infoSet check text => simp [Operation.violation?, check] at broken
  | optionMisplaced text | optionRefused text => simp [Operation.violation?, text] at broken
  | optionSet text check => simp [Operation.violation?, text, check] at broken
  | notEnded | endedUnsent | endedWithError | ended | optionAnswered | infoAnswered => cases broken

/-- **An operation that breaks a rule is rejected.** -/
theorem rejected {op : Operation} {v : State.Violation}
    (broken : op.violation? setup.relaxed s.state = some v) : Rejected setup s op v := by
  obtain ⟨silent, error, state⟩ := (perform_uses setup op s).of_violation broken
  exact ⟨silent, error, state⟩

/-- A number of scopes that is none cannot be opened or closed. -/
theorem rejected_of_negative {n : Int} (negative : n < 0) :
    Rejected setup s (.push n) (.negativeCount "push" n) ∧
      Rejected setup s (.pop n) (.negativeCount "pop" n) :=
  ⟨rejected (if_pos negative), rejected (if_pos negative)⟩

/-- No more scopes can be closed than are open. -/
theorem rejected_of_deeper {n : Int} (natural : 0 ≤ n) (deeper : s.state.scopeDepth < n) :
    Rejected setup s (.pop n) (.tooManyPops n s.state.scopeDepth) := by
  have positive : ¬ n < 0 := by omega
  exact rejected ((if_neg positive).trans (if_pos deeper))

/-- Scopes that may be opened are opened one by one. -/
theorem push_scopesMoved {n : Int} (natural : 0 ≤ n) :
    ScopesMoved setup.backend "push" Backend.pushWire n (uses setup (.push n) s)
      ((perform setup (.push n)).run s).1 := by
  have positive : ¬ n < 0 := by omega
  have conduct := perform_uses setup (.push n) s
  generalize uses setup (.push n) s = us at conduct ⊢
  generalize ((perform setup (.push n)).run s).1 = answer at conduct ⊢
  generalize ((perform setup (.push n)).run s).2.state = behind at conduct
  cases conduct with
  | violated check => simp [Operation.violation?, State.checkPush, positive] at check
  | request is => cases is
  | pushed check row => exact row.scopesMoved natural "push"

/-- Scopes that may be closed are closed one by one. -/
theorem pop_scopesMoved {n : Int} (natural : 0 ≤ n) (enough : n ≤ s.state.scopeDepth) :
    ScopesMoved setup.backend "pop" Backend.popWire n (uses setup (.pop n) s)
      ((perform setup (.pop n)).run s).1 := by
  have positive : ¬ n < 0 := by omega
  have shallow : ¬ s.state.scopeDepth < n := by omega
  have conduct := perform_uses setup (.pop n) s
  generalize uses setup (.pop n) s = us at conduct ⊢
  generalize ((perform setup (.pop n)).run s).1 = answer at conduct ⊢
  generalize ((perform setup (.pop n)).run s).2.state = behind at conduct
  cases conduct with
  | violated check => simp [Operation.violation?, State.checkPop, positive, shallow] at check
  | request is => cases is
  | popped check row => exact row.scopesMoved natural "pop"

/-! ## All reachable states -/

/-- What it is for the scopes of a session to be counted, when `past` is all that was
done with its transport. -/
structure ScopesCounted (setup : Setup σ) (past : List Use) (s : Session σ) : Prop where
  depth : s.state.scopeDepth =
    (Use.sinceReset setup.backend past).countP (Use.acknowledges setup.backend Backend.pushWire)
      - (Use.sinceReset setup.backend past).countP (Use.acknowledges setup.backend Backend.popWire)
  natural : 0 ≤ s.state.scopeDepth
  negative : ∀ n < 0, Rejected setup s (.push n) (.negativeCount "push" n) ∧
    Rejected setup s (.pop n) (.negativeCount "pop" n)
  deeper : ∀ n, 0 ≤ n → s.state.scopeDepth < n →
    Rejected setup s (.pop n) (.tooManyPops n s.state.scopeDepth)
  pushed : ∀ n, 0 ≤ n → ScopesMoved setup.backend "push" Backend.pushWire n
    (uses setup (.push n) s) ((perform setup (.push n)).run s).1
  popped : ∀ n, 0 ≤ n → n ≤ s.state.scopeDepth → ScopesMoved setup.backend "pop" Backend.popWire n
    (uses setup (.pop n) s) ((perform setup (.pop n)).run s).1

/-- **Scopes are counted by their acknowledgements.** Over every transport and after
any operations, the depth of a session is the number of openings less the number of
closings that were acknowledged since the last reset that was; calls that open or close
scopes go wire by wire up to the first failure, and a call that asks for what cannot be
uses the transport not at all. -/
theorem scopes_counted {transport : Transport σ} {link : σ} {bundle : Bundle}
    (made : Session.create b transport link bundle = .ok (setup, s)) (ops : List Operation) :
    ScopesCounted setup (history setup ops s) (afterAll setup ops s) := by
  obtain ⟨known, natural⟩ := account_reached made ops
  have backend : setup.backend = b := by rw [(new_of_create made).1]
  have depth := congrArg Account.depth known
  rw [Account.depth_of, ← backend] at depth
  exact ⟨depth, natural, fun _ => rejected_of_negative, fun _ => rejected_of_deeper,
    fun _ => push_scopesMoved, fun _ => pop_scopesMoved⟩

/-- Two of three scopes were opened when the engine reported an error. -/
theorem scopes_counted_stopped_push :
    let played : Transport.Played :=
      { running := true, replies := [.ok "yices > ", .ok "yices > ", .ok "Error yices > "] }
    ∃ setup s, Session.create Backend.yices (.scripted { name := "yices", prompt := "yices > " })
        played {} = .ok (setup, s) ∧
      ScopesCounted setup (history setup [.push 3] s) (afterAll setup [.push 3] s) ∧
      (afterAll setup [.push 3] s).state.scopeDepth = 2 := by
  intro played
  refine ⟨_, _, rfl, ?_, rfl⟩
  exact @scopes_counted _ Backend.yices _ _ _ _ {} rfl [.push 3]

end Session

end SmtSession
