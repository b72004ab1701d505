import SmtSession.Build
import SmtSession.Proofs.Engine.Wire
import SmtSession.Proofs.Session.Runs
import SmtSession.Proofs.Session.Wires
import SmtSession.Transport.Scripted

/-!
# The engine keeps the assertion stack of the script

**The assertion stack** is what the assertions of a script are worth, whatever
engine hears them: levels of assertions, opened and closed by the script.
`Assertions.after` computes it from the operations alone.

`assertions_refined` says that a session over the stack engine keeps that engine
at exactly this stack, after any operations, those that fail included. One step is
`Simulates.of_conduct`: each wire of `SmtSession.Proofs.Engine.Wire`
moves the engine as the operation behind it moves the stack. Not said here: what
happens behind the end of a session, which no engine is left to hear.
-/

namespace SmtSession

open Engine (Stack)
open Session (Operation)
open Transport (Part Played Use)

/-! ## The stack of a script -/

/-- The levels of assertions of a script, the innermost first, and whether the
script has set a logic. -/
structure Assertions where
  levels : List (List String) := [[]]
  logicFixed : Bool := false

namespace Assertions

/-- The stack after one more operation. Only an operation that succeeds moves
it; an assertion counts as the engine's text for it. -/
def after (relaxed : Bool) (a : Assertions) : Operation → Assertions
  | .assert t =>
    match Dialect.yices.render t with
    | .ok text => { a with levels := a.levels.modifyHead (· ++ [text]) }
    | .error _ => a
  | .push count =>
    if 0 ≤ count then { a with levels := List.replicate count.toNat [] ++ a.levels } else a
  | .pop count =>
    if 0 ≤ count ∧ count < a.levels.length then { a with levels := a.levels.drop count.toNat }
    else a
  | .setLogic logic =>
    if !Logic.isKnown logic.name then a
    else if !a.logicFixed then { a with logicFixed := true }
    else if relaxed then { a with levels := [[]] }
    else a
  | _ => a

/-- The stack after a script. -/
def ofScript (relaxed : Bool) (ops : List Operation) : Assertions :=
  ops.foldl (after relaxed) {}

/-- Whether some live assertion mentions `false`. -/
def refuted (a : Assertions) : Bool :=
  a.levels.any fun level => level.any fun text => Text.contains text "false"

end Assertions

/-! ## A transport that hands every wire to the engine -/

/-- The part of a Yices process that never fails: each wire is answered by the
stack engine, and the prompt follows. -/
def Transport.faithful : Part where
  name := Backend.yices.name
  prompt := Backend.yices.prompt
  answers := true

/-- The transport is talking to the engine in this state, and no reply was laid
down beforehand. -/
structure Transport.Talking (e : Stack) (m : Played) : Prop where
  running : m.running = true
  replies : m.replies = []
  engine : m.engine = e

open Transport (faithful Talking)

/-- A wire that is exchanged goes to the engine, and the reply is its answer
with the prompt behind it. -/
theorem Transport.Talking.exchange {e : Stack} {m m' : Played} {wire : String}
    {outcome : Except Fault String} {us : List Use} (talking : Talking e m)
    (ran : (Transport.scripted faithful).Ran m (.exchange wire outcome :: us) m') :
    outcome = .ok ((e.handle wire).1 ++ Backend.yices.prompt) ∧
      ∃ next, Talking (e.handle wire).2 next ∧ (Transport.scripted faithful).Ran next us m' := by
  obtain ⟨running, replies, rfl⟩ := talking
  let next : Played := { m with sent := wire :: m.sent, engine := (m.engine.handle wire).2 }
  have given : (Transport.scripted faithful).exchange wire m =
      { outcome := .ok ((m.engine.handle wire).1 ++ Backend.yices.prompt), next := next } := by
    show faithful.exchange wire m = _
    simp only [Part.exchange, Part.send, running, if_true, Transport.Trap.fault?, faithful,
      Part.reply, replies, next]
  cases ran with
  | exchange _ rest =>
    rw [given] at rest ⊢
    exact ⟨rfl, next, ⟨running, replies, rfl⟩, rest⟩

/-- A transport that is talking cannot be started, and stays as it is. -/
theorem Transport.Talking.start {e : Stack} {m m' : Played} {outcome : Except Fault Unit}
    (talking : Talking e m)
    (ran : (Transport.scripted faithful).Ran m [.start outcome] m') :
    outcome.isOk = false ∧ m' = m := by
  have refused : ∃ f,
      (Transport.scripted faithful).start m = { outcome := .error f, next := m } := by
    show ∃ f, faithful.start m = _
    simp only [Part.start, faithful, talking.running, if_true]
    exact ⟨_, rfl⟩
  obtain ⟨f, refused⟩ := refused
  cases ran with
  | start rest =>
    rw [refused] at rest ⊢
    cases rest with
    | nil => exact ⟨rfl, rfl⟩

/-- Nothing happens to the engine when the transport is not used. -/
theorem Transport.Talking.unused {e : Stack} {m m' : Played} (talking : Talking e m)
    (ran : (Transport.scripted faithful).Ran m [] m') : Talking e m' := by
  cases ran with
  | nil => exact talking

namespace Session

variable {e : Stack} {m m' : Played} {us : List Use} {s s' : State} {op : Operation} {r : Request}
  {answer : Answer}

/-! ## Rows of wires -/

/-- A row of wires is acknowledged to its end when the engine agrees to each of
them. `P k` is what holds of the engine when `k` wires are still to come. -/
theorem Row.acknowledged_to_end {wire : String} {n acknowledged : Nat} {failure : Option Failure}
    {P : Nat → Stack → Prop}
    (agrees : ∀ k e, P (k + 1) e → ∃ e', e.handle wire = ("", e') ∧ P k e')
    (row : Row Backend.yices wire n us acknowledged failure)
    (talking : Talking e m) (ran : (Transport.scripted faithful).Ran m us m') (holds : P n e) :
    acknowledged = n ∧ failure = none ∧ ∃ e', Talking e' m' ∧ P 0 e' := by
  induction row generalizing e m with
  | done => exact ⟨rfl, rfl, e, talking.unused ran, holds⟩
  | stopped read =>
    obtain ⟨e', handled, -⟩ := agrees _ _ holds
    obtain ⟨rfl, -⟩ := talking.exchange ran
    have clean : Backend.yices.reportsError ("" ++ Backend.yices.prompt) = false := by decide
    rw [handled, reading_of_clean clean] at read
    cases read
  | went read rest ih =>
    obtain ⟨e', handled, holds'⟩ := agrees _ _ holds
    obtain ⟨-, next, talking', ran'⟩ := talking.exchange ran
    rw [handled] at talking'
    obtain ⟨rfl, rfl, reached⟩ := ih talking' ran' holds'
    exact ⟨rfl, rfl, reached⟩

/-- A row of openings puts that many empty scopes on top. -/
theorem Row.opens {n acknowledged : Nat} {failure : Option Failure}
    (row : Row Backend.yices Backend.pushWire n us acknowledged failure)
    (talking : Talking e m) (ran : (Transport.scripted faithful).Ran m us m') :
    acknowledged = n ∧ ∃ e', Talking e' m' ∧ e'.scopes = List.replicate n [] ++ e.scopes := by
  obtain ⟨all, -, e', talking', holds⟩ :=
    row.acknowledged_to_end (P := fun k e' =>
      List.replicate k [] ++ e'.scopes = List.replicate n [] ++ e.scopes)
    (fun k e' opened => ⟨_, e'.handle_push, by
      rw [← opened, List.replicate_succ', List.append_assoc]
      rfl⟩) talking ran rfl
  exact ⟨all, e', talking', holds⟩

/-- A row of closings takes that many scopes off, when as many are open. -/
theorem Row.closes {n acknowledged : Nat} {failure : Option Failure}
    (row : Row Backend.yices Backend.popWire n us acknowledged failure) (enough : n ≤ e.depth)
    (talking : Talking e m) (ran : (Transport.scripted faithful).Ran m us m') :
    acknowledged = n ∧ ∃ e', Talking e' m' ∧ e'.scopes = e.scopes.drop n := by
  obtain ⟨all, -, e', talking', holds, -⟩ :=
    row.acknowledged_to_end (P := fun k e' => e'.scopes.drop k = e.scopes.drop n ∧ k ≤ e'.depth)
    (fun k e' ⟨closed, enough⟩ => by
      obtain ⟨top, _ | ⟨scope, below⟩⟩ := e'
      · cases enough
      · exact ⟨_, Stack.handle_pop _ rfl, closed, Nat.le_of_succ_le_succ enough⟩)
    talking ran ⟨rfl, enough⟩
  exact ⟨all, e', talking', holds⟩

/-! ## Requests -/

/-- The engine agrees to every definition, and stays as it is. -/
theorem handle_of_defines {wire : String} (e : Stack) (defines : Backend.Defines wire) :
    e.handle wire = ("", e) := by
  obtain ⟨kind, first, more, rfl⟩ := defines
  exact e.handle_define kind first more

/-- Of all requests only an assertion moves the engine, and it moves it as it
moves the stack of the script. -/
theorem scopes_of_request {wire : String} (relaxed : Bool) (a : Assertions)
    (is : op.request? Backend.yices = some r) (sent : r.wire = .ok (some wire))
    (same : e.scopes = a.levels) : (e.handle wire).2.scopes = (a.after relaxed op).levels := by
  have kept (defines : Backend.Defines wire) : (e.handle wire).2.scopes = a.levels := by
    rw [handle_of_defines e defines, same]
  have unknown (wired : wire ∈ [Backend.proofWire, Backend.unsatCoreWire, Backend.assignmentWire]) :
      (e.handle wire).2.scopes = a.levels := by
    obtain ⟨command, handled⟩ := e.handle_unknown wired
    rw [handled, same]
  cases op with
  | start | exit | push | pop | setLogic | setOption | getOption | setInfo | getInfo => cases is
  | assert t =>
    cases is
    obtain ⟨_, wired, eq⟩ := Dialect.map_eq_ok.mp sent
    cases eq
    obtain ⟨expr, spelled, rfl⟩ := (Backend.assertWire_eq_ok _).mp wired
    have rendered : Dialect.yices.render t = .ok expr.text := by
      rw [Dialect.render, show Dialect.yices.spell t = .ok expr from spelled]
      rfl
    rw [e.handle_assert, Assertions.after, rendered, ← same]
    rfl
  | checkSat =>
    cases is
    cases sent
    rw [e.handle_check, same]
    rfl
  | declareFun name args result =>
    cases is
    obtain ⟨_, spelled, eq⟩ := Dialect.map_eq_ok.mp sent
    cases eq
    exact kept (Backend.declareWire_defines _ spelled)
  | declareConst name sort =>
    cases is
    obtain ⟨_, spelled, eq⟩ := Dialect.map_eq_ok.mp sent
    cases eq
    exact kept (Backend.declareWire_defines _ spelled)
  | defineFun name parameters result body =>
    cases is
    obtain ⟨_, spelled, eq⟩ := Backend.ifDefinitions_eq_ok Backend.yices rfl sent
    cases eq
    exact kept (Backend.defineWire_defines _ spelled)
  | declareSort name arity =>
    cases is
    obtain ⟨_, spelled, eq⟩ := Backend.ifDefinitions_eq_ok Backend.yices rfl sent
    cases eq
    exact kept (Backend.declareSortWire_defines _ spelled)
  | defineSort name parameters definition =>
    cases is
    obtain ⟨_, spelled, eq⟩ := Backend.ifDefinitions_eq_ok Backend.yices rfl sent
    cases eq
    exact kept (Backend.defineSortWire_defines _ spelled)
  | getValue terms =>
    cases is
    obtain ⟨_, spelled, eq⟩ := Dialect.map_eq_ok.mp sent
    cases eq
    obtain ⟨es, rfl⟩ := Backend.valueWire_asks _ spelled
    rw [e.handle_values, same]
    rfl
  | getProof => cases is; cases sent; exact unknown (by decide)
  | getUnsatCore => cases is; cases sent; exact unknown (by decide)
  | getAssignment => cases is; cases sent; exact unknown (by decide)

/-- A request that is not sent does not move the stack of the script. -/
theorem after_of_unsent (relaxed : Bool) (a : Assertions)
    (is : op.request? Backend.yices = some r) (unsent : ∀ wire, r.wire ≠ .ok (some wire)) :
    a.after relaxed op = a := by
  cases op with
  | assert t =>
    cases is
    rw [Assertions.after, Dialect.render]
    cases spelled : Dialect.yices.spell t with
    | error cause => rfl
    | ok expr =>
      refine absurd ?_ (unsent (Backend.line (SExpr.call (.atom "assert+") [expr])))
      exact Dialect.map_eq_ok.mpr ⟨_, (Backend.assertWire_eq_ok _).mpr ⟨expr, spelled, rfl⟩, rfl⟩
  | start | exit | push | pop | setLogic | setOption | getOption | setInfo | getInfo => cases is
  | _ => rfl

/-- No request sets a logic. -/
theorem logicFixed_of_request (relaxed : Bool) (a : Assertions)
    (is : op.request? Backend.yices = some r) :
    (a.after relaxed op).logicFixed = a.logicFixed := by
  cases op with
  | assert t =>
    rw [Assertions.after]
    cases Dialect.yices.render t with
    | error cause => rfl
    | ok text => rfl
  | start | exit | push | pop | setLogic | setOption | getOption | setInfo | getInfo => cases is
  | _ => rfl

/-- A request leaves the depth and the logic of the state alone. -/
theorem accept_keeps (is : op.request? Backend.yices = some r) (reply : String) (s : State) :
    (r.accept reply s).scopeDepth = s.scopeDepth ∧
      (r.accept reply s).logicFixed = s.logicFixed := by
  obtain ⟨verdict, accepted⟩ := accept_eq is reply s
  rw [accepted]
  exact ⟨rfl, rfl⟩

/-! ## One step -/

/-- **The session and the script agree**: the engine is at the stack of the
script, the depth counts the levels above the first, and both know alike whether
there is a logic. -/
structure Simulates (s : State) (m : Played) (a : Assertions) : Prop where
  talking : Talking m.engine m
  scopes : m.engine.scopes = a.levels
  depth : s.scopeDepth = a.levels.length - 1
  fixed : s.logicFixed = a.logicFixed

namespace Simulates

variable {a : Assertions} {relaxed : Bool}

/-- The number of levels, in terms of the engine. -/
theorem length_levels (sim : Simulates s m a) : a.levels.length = m.engine.depth + 1 := by
  rw [← sim.scopes]
  rfl

/-- An operation that uses nothing and moves no stack keeps the agreement. -/
theorem unused (sim : Simulates s m a) (ran : (Transport.scripted faithful).Ran m [] m')
    (still : a.after relaxed op = a) (depth : s'.scopeDepth = s.scopeDepth)
    (fixed : s'.logicFixed = s.logicFixed) : Simulates s' m' (a.after relaxed op) := by
  cases ran with
  | nil =>
    rw [still]
    exact ⟨sim.talking, sim.scopes, depth.trans sim.depth, fixed.trans sim.fixed⟩

/-- A refused operation moves no stack. -/
theorem after_of_violated {v : State.Violation} (sim : Simulates s m a)
    (check : op.violation? relaxed s = some v) : a.after relaxed op = a := by
  cases op with
  | push count =>
    have negative : ¬ 0 ≤ count := fun natural => by
      simp [Operation.violation?, State.checkPush, Int.not_lt.mpr natural] at check
    rw [Assertions.after, if_neg negative]
  | pop count =>
    have outside : ¬ (0 ≤ count ∧ count < a.levels.length) := by
      rintro ⟨natural, below⟩
      have enough : ¬ count > s.scopeDepth := by
        rw [sim.depth]
        omega
      simp [Operation.violation?, State.checkPop, Int.not_lt.mpr natural, enough] at check
    rw [Assertions.after, if_neg outside]
  | setLogic logic =>
    simp only [Operation.violation?, State.checkSetLogic, sim.fixed] at check
    cases known : Logic.isKnown logic.name with
    | false => simp [Assertions.after, known]
    | true =>
      obtain ⟨strict, -⟩ : (a.logicFixed = true ∧ relaxed = false) ∧ .logicAlreadySet = v := by
        simpa [known] using check
      simp [Assertions.after, known, strict]
  | assert t => cases check
  | _ => rfl

/-- A request keeps the agreement, whatever is made of the reply. -/
theorem of_carried (sim : Simulates s m a) (is : op.request? Backend.yices = some r)
    (carried : Carried Backend.yices r s us answer s')
    (ran : (Transport.scripted faithful).Ran m us m') : Simulates s' m' (a.after relaxed op) := by
  have exchanged {wire : String} {outcome : Except Fault String} {s' : State}
      (spelled : r.wire = .ok (some wire))
      (ran : (Transport.scripted faithful).Ran m [.exchange wire outcome] m')
      (depth : s'.scopeDepth = s.scopeDepth) (fixed : s'.logicFixed = s.logicFixed) :
      Simulates s' m' (a.after relaxed op) := by
    obtain ⟨-, next, talking, rest⟩ := sim.talking.exchange ran
    have talking := talking.unused rest
    have moved := scopes_of_request relaxed a is spelled sim.scopes
    have levels : (a.after relaxed op).levels.length = a.levels.length := by
      cases op with
      | assert t =>
        rw [Assertions.after]
        cases Dialect.yices.render t with
        | error cause => rfl
        | ok text => exact List.length_modifyHead
      | start | exit | push | pop | setLogic | setOption | getOption | setInfo | getInfo => cases is
      | _ => rfl
    refine ⟨talking.engine ▸ talking, talking.engine ▸ moved, ?_, ?_⟩
    · rw [depth, sim.depth, levels]
    · rw [fixed, sim.fixed, logicFixed_of_request relaxed a is]
  cases carried with
  | misplaced wire =>
    refine sim.unused ran (after_of_unsent relaxed a is fun _ sent => ?_) rfl rfl
    rw [wire] at sent
    cases sent
  | refused wire =>
    refine sim.unused ran (after_of_unsent relaxed a is fun _ sent => ?_) rfl rfl
    rw [wire] at sent
    cases sent
  | unsent wire =>
    refine sim.unused ran (after_of_unsent relaxed a is fun _ sent => ?_) rfl rfl
    rw [wire] at sent
    cases sent
  | failed spelled read => exact exchanged spelled ran rfl rfl
  | acknowledged spelled read =>
    obtain ⟨depth, fixed⟩ := accept_keeps is _ s
    exact exchanged spelled ran depth fixed

/-- Opening scopes keeps the agreement. -/
theorem of_pushed {count : Int} {acknowledged : Nat} {failure : Option Failure}
    (sim : Simulates s m a) (check : State.checkPush count = none)
    (row : Row Backend.yices Backend.pushWire count.toNat us acknowledged failure)
    (ran : (Transport.scripted faithful).Ran m us m') :
    Simulates (s.moveScopes acknowledged) m' (a.after relaxed (.push count)) := by
  obtain ⟨rfl, e, talking, scopes⟩ := row.opens sim.talking ran
  have natural : 0 ≤ count := Int.not_lt.mp fun negative => by
    simp [State.checkPush, negative] at check
  rw [Assertions.after, if_pos natural]
  refine ⟨talking.engine ▸ talking, ?_, ?_, ?_⟩
  · rw [talking.engine, scopes, sim.scopes]
  · rw [State.moveScopes_eq]
    show s.scopeDepth + (count.toNat : Int) = _
    rw [sim.depth, List.length_append, List.length_replicate]
    omega
  · rw [State.moveScopes_eq, sim.fixed]

/-- Closing scopes keeps the agreement. -/
theorem of_popped {count : Int} {acknowledged : Nat} {failure : Option Failure}
    (sim : Simulates s m a) (check : s.checkPop count = none)
    (row : Row Backend.yices Backend.popWire count.toNat us acknowledged failure)
    (ran : (Transport.scripted faithful).Ran m us m') :
    Simulates (s.moveScopes (-acknowledged)) m' (a.after relaxed (.pop count)) := by
  have natural : 0 ≤ count := Int.not_lt.mp fun negative => by
    simp [State.checkPop, negative] at check
  have enough : count ≤ s.scopeDepth := Int.not_lt.mp fun more => by
    simp [State.checkPop, Int.not_lt.mpr natural, more] at check
  have depth := sim.depth
  have length := sim.length_levels
  obtain ⟨rfl, e, talking, scopes⟩ := row.closes (by omega) sim.talking ran
  rw [Assertions.after, if_pos ⟨natural, by omega⟩]
  refine ⟨talking.engine ▸ talking, ?_, ?_, ?_⟩
  · rw [talking.engine, scopes, sim.scopes]
  · rw [State.moveScopes_eq]
    show s.scopeDepth + -(count.toNat : Int) = _
    rw [sim.depth, List.length_drop]
    omega
  · rw [State.moveScopes_eq, sim.fixed]

/-- Setting another logic keeps the agreement: the engine and the script both
begin again at one empty level. -/
theorem of_logicReset {logic : Symbol} (sim : Simulates s m a)
    (check : s.checkSetLogic logic.name relaxed = none) (fixed : s.logicFixed = true)
    (carried : Carried Backend.yices (resetRequest logic) s us answer s')
    (ran : (Transport.scripted faithful).Ran m us m') :
    Simulates s' m' (a.after relaxed (.setLogic logic)) := by
  have already : a.logicFixed = true := sim.fixed.symm.trans fixed
  have known : Logic.isKnown logic.name = true ∧ relaxed = true := by
    cases relaxed with
    | false => simp [State.checkSetLogic, fixed] at check
    | true => simpa [State.checkSetLogic] using check
  have emptied : a.after relaxed (.setLogic logic) = { a with levels := [[]] } := by
    simp [Assertions.after, known, already]
  rw [emptied]
  cases carried with
  | misplaced wire | refused wire | unsent wire => cases wire
  | failed spelled read =>
    cases spelled
    have clean : Backend.yices.reportsError ("" ++ Backend.yices.prompt) = false := by decide
    obtain ⟨rfl, -⟩ := sim.talking.exchange ran
    rw [Stack.handle_reset, reading_of_clean clean] at read
    cases read
  | acknowledged spelled read =>
    cases spelled
    obtain ⟨-, next, talking, rest⟩ := sim.talking.exchange ran
    have talking := talking.unused rest
    rw [Stack.handle_reset] at talking
    exact ⟨talking.engine ▸ talking, by rw [talking.engine]; rfl, rfl, already.symm⟩

/-- **An operation keeps the agreement**, in whichever way it goes. -/
theorem of_conduct (sim : Simulates s m a) (stays : op ≠ .exit)
    (conduct : Conduct Backend.yices relaxed s op us answer s')
    (ran : (Transport.scripted faithful).Ran m us m') : Simulates s' m' (a.after relaxed op) := by
  cases conduct with
  | violated check => exact sim.unused ran (sim.after_of_violated check) rfl rfl
  | request is carried => exact sim.of_carried is carried ran
  | started check =>
    obtain ⟨refused, -⟩ := sim.talking.start ran
    cases refused
  | notStarted check =>
    obtain ⟨-, rfl⟩ := sim.talking.start ran
    exact ⟨sim.talking, sim.scopes, sim.depth, sim.fixed⟩
  | notEnded | endedUnsent | endedWithError | ended => exact absurd rfl stays
  | pushed check row => exact sim.of_pushed check row ran
  | popped check row => exact sim.of_popped check row ran
  | @logicSet logic check free =>
    have known : Logic.isKnown logic.name = true := by
      simpa [State.checkSetLogic, free] using check
    have set : a.after relaxed (.setLogic logic) = { a with logicFixed := true } := by
      simp [Assertions.after, known, ← sim.fixed, free]
    rw [set]
    cases ran with
    | nil => exact ⟨sim.talking, sim.scopes, sim.depth, rfl⟩
  | logicReset check fixed carried => exact sim.of_logicReset check fixed carried ran
  | optionMisplaced | optionRefused | optionSet | infoMisplaced | infoRefused | infoSet
  | optionAnswered | infoAnswered => exact sim.unused ran rfl rfl rfl

end Simulates

/-! ## All operations of a script -/

/-- A check answers what the stack of the script decides. -/
theorem Simulates.checked {a : Assertions} {relaxed : Bool} (sim : Simulates s m a)
    (conduct : Conduct Backend.yices relaxed s .checkSat us answer s')
    (ran : (Transport.scripted faithful).Ran m us m') :
    answer = .ok (.verdict (if a.refuted then .unsat else .sat)) := by
  have answered : (m.engine.handle Backend.checkWire).1 =
      if a.refuted then "unsat\n" else "sat\n" := by
    rw [Stack.handle_check, Stack.refuted, sim.scopes]
    rfl
  cases conduct with
  | violated check => cases check
  | request is carried =>
    cases is
    cases carried with
    | misplaced wire | refused wire | unsent wire => cases wire
    | failed spelled read =>
      cases spelled
      obtain ⟨rfl, -⟩ := sim.talking.exchange ran
      have clean : Backend.yices.reportsError
          ((if a.refuted then "unsat\n" else "sat\n") ++ Backend.yices.prompt) = false := by
        cases a.refuted <;> decide
      rw [answered, reading_of_clean clean] at read
      cases read
    | acknowledged spelled read =>
      cases spelled
      obtain ⟨replied, -⟩ := sim.talking.exchange ran
      have decided : Backend.yices.verdictOf
          ((if a.refuted then "unsat\n" else "sat\n") ++ Backend.yices.prompt) =
          if a.refuted then .unsat else .sat := by
        cases a.refuted <;> decide
      rw [Except.ok.inj replied, answered]
      exact congrArg (fun v => Except.ok (Response.verdict v)) decided

/-- The sessions here: over the Yices backend, and a transport that hands every
wire to the engine. -/
def Setup.faithful (relaxed verbose : Bool) : Setup Played where
  backend := Backend.yices
  transport := .scripted Transport.faithful
  relaxed := relaxed
  verbose := verbose

variable {relaxed verbose : Bool}

/-- An operation keeps the agreement of a session with a script. -/
theorem after_simulates {s : Session Played} {a : Assertions} (sim : Simulates s.state s.link a)
    (stays : op ≠ .exit) :
    Simulates (after (.faithful relaxed verbose) s op).state
      (after (.faithful relaxed verbose) s op).link (a.after relaxed op) := by
  obtain ⟨us, ran, conduct⟩ := perform_conduct (.faithful relaxed verbose) op s
  exact sim.of_conduct stays conduct ran

/-- So do any number of operations. -/
theorem afterAll_simulates {ops : List Operation} {s : Session Played} {a : Assertions}
    (sim : Simulates s.state s.link a) (stays : .exit ∉ ops) :
    Simulates (afterAll (.faithful relaxed verbose) ops s).state
      (afterAll (.faithful relaxed verbose) ops s).link
      (ops.foldl (Assertions.after relaxed) a) := by
  induction ops generalizing s a with
  | nil => exact sim
  | cons op ops ih =>
    obtain ⟨here, later⟩ := not_or.mp (mt List.mem_cons.mpr stays)
    exact ih (after_simulates sim (Ne.symm here)) later

/-- What a new session is like, whatever the bundle. -/
theorem create_eq_ok {bundle : Bundle} {setup : Setup Played} {s : Session Played}
    (made : Session.create Backend.yices (.scripted faithful) {} bundle = .ok (setup, s)) :
    setup = .faithful bundle.relax.truthy bundle.verbose.truthy ∧
      ∃ table, s = { state := { options := table }, link := {} } :=
  new_of_create made

/-- A new session agrees with the empty script once it is started. -/
theorem start_simulates (table : Table) :
    Simulates
      (after (.faithful relaxed verbose)
        { state := { options := table }, link := {} } .start).state
      (after (.faithful relaxed verbose) { state := { options := table }, link := {} } .start).link
      {} :=
  ⟨⟨rfl, rfl, rfl⟩, rfl, rfl, rfl⟩

/-- **The engine keeps the assertion stack of the script.** Take any bundle that
makes a session over an engine that hears every wire, start it, and let it carry
out any operations, those that fail included, except the end of the session. Then
the scopes of the engine are the levels of the script, the depth counts the
levels above the first, and a check answers `unsat` if a live assertion mentions
`false` and `sat` if none does. -/
theorem assertions_refined {bundle : Bundle} {setup : Setup Played} {s : Session Played}
    (made : Session.create Backend.yices (.scripted faithful) {} bundle = .ok (setup, s))
    {ops : List Operation} (stays : .exit ∉ ops) :
    let reached := afterAll setup (.start :: ops) s
    let script := Assertions.ofScript setup.relaxed ops
    reached.link.engine.scopes = script.levels ∧
      reached.state.scopeDepth = script.levels.length - 1 ∧
      ((perform setup .checkSat).run reached).1 =
        .ok (.verdict (if script.refuted then .unsat else .sat)) := by
  obtain ⟨rfl, table, rfl⟩ := create_eq_ok made
  intro reached script
  have sim : Simulates reached.state reached.link script :=
    afterAll_simulates (s := after (.faithful _ _) _ .start) (start_simulates table) stays
  obtain ⟨us, ran, conduct⟩ := perform_conduct (.faithful _ _) .checkSat reached
  exact ⟨sim.scopes, sim.depth, sim.checked conduct ran⟩

/-- Two scopes are opened and the inner one is refuted; closing it leaves the
other, and closing more than there are does nothing. -/
theorem assertions_refined_short_script :
    let ops : List Operation :=
      [.push 2, .assert (.truth false), .pop 1, .assert (.truth true), .pop 7]
    ∃ setup s, Session.create Backend.yices (.scripted faithful) {} {} = .ok (setup, s) ∧
      .exit ∉ ops ∧
      (afterAll setup (.start :: ops) s).link.engine.scopes = [["true"], []] ∧
      (afterAll setup (.start :: ops) s).state.scopeDepth = 1 ∧
      ((perform setup .checkSat).run (afterAll setup (.start :: ops) s)).1 =
        .ok (.verdict .sat) := by
  have stays : Operation.exit ∉
      [.push 2, .assert (.truth false), .pop 1, .assert (.truth true), .pop 7] := by simp
  exact ⟨_, _, rfl, stays, @assertions_refined {} _ _ rfl _ stays⟩

end Session

end SmtSession
