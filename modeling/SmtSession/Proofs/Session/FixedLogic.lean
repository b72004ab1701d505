import SmtSession.Proofs.Session.Framing
import SmtSession.Proofs.Session.Lifecycle
import SmtSession.Proofs.Session.Settings

/-!
# The logic of a session

**A logic is fixed once**, unless the session is relaxed: `logic_kept`. Over any transport
and after any operations, a session holds a logic exactly when one is fixed, and only one
that is known. In a strict session a second logic is refused before anything is sent. In
a relaxed one it is set behind a reset of the engine: if the reset is acknowledged the
session has the new logic and a new beginning, and if not it has what it had.

What an operation can do to the logic is read off `Settles`; that a reset is sent for a
logic and for nothing else, off `Conduct`.
-/

namespace SmtSession

open Transport (Use)

/-! ## Known logics -/

/-- The name is that of a logic: an extra name as it stands, or a standard name in any
letter case. -/
def Logic.Known (name : String) : Prop :=
  name ∈ extraNames ∨ ∃ known ∈ standardNames, fold known = fold name

theorem Logic.isKnown_iff {name : String} : isKnown name = true ↔ Known name := by
  simp [isKnown, Known]

/-- A logic that passes the check is known, and in a strict session it is the first. -/
theorem State.of_checkSetLogic {s : State} {name : String} {relaxed : Bool}
    (check : s.checkSetLogic name relaxed = none) :
    Logic.Known name ∧ (relaxed = false → s.logicFixed = false) := by
  unfold State.checkSetLogic at check
  split at check
  · cases check
  · next free =>
    split at check
    · next known =>
      refine ⟨Logic.isKnown_iff.mp known, fun strict => ?_⟩
      simpa [strict] using free
    · cases check

/-- In a relaxed session every known logic passes the check. -/
theorem State.checkSetLogic_relaxed {s : State} {name : String} (known : Logic.Known name) :
    s.checkSetLogic name true = none := by
  simp [State.checkSetLogic, Logic.isKnown_iff.mpr known]

/-- What it is for a state to hold a logic: it holds a name exactly when a logic is fixed,
and only the name of a logic. -/
structure State.LogicFits (s : State) : Prop where
  fixed_iff : s.logicFixed = true ↔ ∃ name, s.logic = some name
  known : ∀ name, s.logic = some name → Logic.Known name

namespace Session

/-! ## One step -/

section

variable {b : Backend} {relaxed : Bool} {s s' : State} {op : Operation} {us : List Use}
  {answer : Answer}

namespace Settles

theorem logicFits (settles : Settles relaxed s op answer s') (fits : s.LogicFits) :
    s'.LogicFits := by
  cases settles with
  | @logic logic _ _ check =>
    refine ⟨iff_of_true rfl ⟨_, rfl⟩, ?_⟩
    rintro name ⟨⟩
    exact (State.of_checkSetLogic check).1
  | option | info => exact ⟨fits.fixed_iff, fits.known⟩
  | nothing _ _ _ _ _ same =>
    subst same
    exact ⟨fits.fixed_iff, fits.known⟩

theorem logicFixed_mono (settles : Settles relaxed s op answer s') (fixed : s.logicFixed = true) :
    s'.logicFixed = true := by
  cases settles with
  | logic => rfl
  | option | info => exact fixed
  | nothing _ _ _ _ _ same =>
    subst same
    exact fixed

/-- A strict session keeps its logic. -/
theorem logic_eq (settles : Settles relaxed s op answer s') (strict : relaxed = false)
    (fixed : s.logicFixed = true) : s'.logic = s.logic := by
  cases settles with
  | logic check =>
    rw [(State.of_checkSetLogic check).2 strict] at fixed
    cases fixed
  | option | info => rfl
  | nothing _ _ _ _ _ same =>
    subst same
    rfl

end Settles

/-- The operation is a logic that was set. -/
def hasSetLogic : Operation × Answer → Bool
  | (.setLogic _, .ok r) => r.isOk
  | _ => false

/-- A logic that is set is the logic of the session; in a strict one it is the first. -/
theorem Settles.of_hasSetLogic (settles : Settles relaxed s op answer s')
    (sets : hasSetLogic (op, answer) = true) :
    ∃ logic, op = .setLogic logic ∧ s'.logic = some logic.name ∧ s'.logicFixed = true ∧
      (relaxed = false → s.logicFixed = false) := by
  cases settles with
  | @logic logic _ _ check => exact ⟨logic, rfl, rfl, rfl, (State.of_checkSetLogic check).2⟩
  | option | info => cases sets
  | nothing _ _ _ _ idle same =>
    cases op with
    | setLogic logic =>
      cases answer with
      | error part => cases sets
      | ok r =>
        rw [hasSetLogic, idle rfl r rfl] at sets
        cases sets
    | _ => cases sets

/-- No request is a reset. -/
theorem resetWire_ne_of_request {r : Request} {wire : String} (is : op.request? b = some r)
    (sent : r.wire = .ok (some wire)) : wire ≠ Backend.resetWire := by
  rintro rfl
  obtain ⟨asserts, -⟩ | ⟨same, -⟩ | ⟨letter, -⟩ := sent_of_request is sent
  · have letter := Backend.letter?_of_isAssertion asserts
    revert letter
    decide
  · revert same
    decide
  · revert letter
    decide

/-- **A reset is sent for a logic only**, in a relaxed session that has one. -/
theorem Conduct.of_reset (conduct : Conduct b relaxed s op us answer s') {u : Use} (is : u ∈ us)
    (hands : u.wire? = some Backend.resetWire) :
    relaxed = true ∧ s.logicFixed = true ∧ ∃ logic, op = .setLogic logic := by
  have of_row {moved : String} {n acknowledged : Nat} {failure : Option Failure}
      (row : Row b moved n us acknowledged failure) : moved = Backend.resetWire := by
    have same := row.wire u is
    rw [hands] at same
    exact (Option.some.inj same).symm
  cases conduct with
  | request isRequest carried =>
    cases carried with
    | misplaced | refused | unsent => cases is
    | failed spelled | acknowledged spelled =>
      cases List.mem_singleton.mp is
      exact absurd (Option.some.inj hands) (resetWire_ne_of_request isRequest spelled)
  | pushed check row => exact absurd (of_row row) (by decide)
  | popped check row => exact absurd (of_row row) (by decide)
  | logicReset check fixed carried =>
    refine ⟨?_, fixed, _, rfl⟩
    by_contra strict
    rw [(State.of_checkSetLogic check).2 (by simpa using strict)] at fixed
    cases fixed
  | started | notStarted =>
    cases List.mem_singleton.mp is
    cases hands
  | notEnded | endedUnsent | endedWithError | ended =>
    simp only [List.mem_cons, List.not_mem_nil, or_false] at is
    rcases is with rfl | rfl
    · exact absurd (Option.some.inj hands) (by decide)
    · cases hands
  | violated | logicSet | optionMisplaced | optionRefused | optionSet | infoMisplaced | infoRefused
  | infoSet | optionAnswered | infoAnswered => cases is

/-- A known logic for a relaxed session that has one is a reset of the engine, and what
comes of it. -/
theorem Conduct.of_logicReset {logic : Symbol}
    (conduct : Conduct b true s (.setLogic logic) us answer s') (fixed : s.logicFixed = true)
    (known : Logic.Known logic.name) : Carried b (resetRequest logic) s us answer s' := by
  cases conduct with
  | violated check =>
    rw [Operation.violation?, State.checkSetLogic_relaxed known] at check
    cases check
  | request is => cases is
  | logicSet check free =>
    rw [fixed] at free
    cases free
  | logicReset check fixed carried => exact carried

end

/-! ## A logic behind a reset -/

/-- What it is for a session to be given another logic behind a reset of the engine, when
the exchange of the reset had that outcome. -/
structure LogicReset (setup : Setup σ) (s : Session σ) (logic : Symbol)
    (outcome : Except Fault String) : Prop where
  /-- The reset is all that is sent. -/
  sends : uses setup (.setLogic logic) s = [.exchange Backend.resetWire outcome]
  accepted : (Use.exchange Backend.resetWire outcome).acknowledges setup.backend Backend.resetWire →
    ((perform setup (.setLogic logic)).run s).1 = .ok .success ∧
      (after setup s (.setLogic logic)).state = { s.state with
        logicFixed := true
        logic := some logic.name
        scopeDepth := 0
        lastVerdict := none }
  refused :
    ¬ (Use.exchange Backend.resetWire outcome).acknowledges setup.backend Backend.resetWire →
      (∃ r, ((perform setup (.setLogic logic)).run s).1 = .ok r ∧ r.isError = true) ∧
        (after setup s (.setLogic logic)).state = s.state

/-- **Another logic is set behind an acknowledged reset, or not at all.** -/
theorem logicReset_of_relaxed {setup : Setup σ} (relaxed : setup.relaxed = true) {s : Session σ}
    (fixed : s.state.logicFixed = true) {logic : Symbol} (known : Logic.Known logic.name) :
    LogicReset setup s logic (setup.transport.exchange Backend.resetWire s.link).outcome := by
  have conduct := perform_uses setup (.setLogic logic) s
  rw [relaxed] at conduct
  have carried := conduct.of_logicReset fixed known
  have ran := perform_ran setup (.setLogic logic) s
  generalize sent : uses setup (.setLogic logic) s = us at carried ran
  generalize answered : ((perform setup (.setLogic logic)).run s).1 = answer at carried
  generalize left : ((perform setup (.setLogic logic)).run s).2.state = s' at carried
  cases carried with
  | misplaced wire | refused wire | unsent wire => cases wire
  | @failed _ outcome failure spelled read =>
    cases spelled
    obtain ⟨rfl, -⟩ := ran.of_exchange
    refine ⟨sent, fun acknowledges => ?_, fun _ => ⟨⟨_, answered, ?_⟩, left⟩⟩
    · generalize (setup.transport.exchange Backend.resetWire s.link).outcome = outcome at *
      cases outcome with
      | error f => cases acknowledges
      | ok reply =>
        have clean : setup.backend.reportsError reply = false := by
          simpa [Use.acknowledges] using acknowledges
        rw [reading_of_clean clean] at read
        cases read
    · cases failure <;> rfl
  | @acknowledged _ reply spelled read =>
    cases spelled
    obtain ⟨outcome, -⟩ := ran.of_exchange
    rw [outcome]
    refine ⟨sent, fun _ => ⟨answered, left⟩, fun refused => ?_⟩
    exact absurd (by simp [Use.acknowledges, read]) refused

/-! ## All reachable states -/

/-- What it is for a session to keep to its logic, after some operations on a session that
was made over some transport. -/
structure LogicKept (setup : Setup σ) (made : Session σ) (ops : List Operation) : Prop where
  fits : (afterAll setup ops made).state.LogicFits
  /-- A logic that is set is the logic of the session from there on. -/
  sets : ∀ logic,
    let here := afterAll setup ops made
    hasSetLogic (.setLogic logic, ((perform setup (.setLogic logic)).run here).1) = true →
      (after setup here (.setLogic logic)).state.logic = some logic.name
  setsOnce : setup.relaxed = false → (answers setup ops made).countP hasSetLogic ≤ 1
  stays : setup.relaxed = false → (afterAll setup ops made).state.logicFixed = true →
    ∀ more, (afterAll setup (ops ++ more) made).state.logicFixed = true ∧
      (afterAll setup (ops ++ more) made).state.logic = (afterAll setup ops made).state.logic
  neverReset : setup.relaxed = false →
    ∀ u ∈ history setup ops made, u.wire? ≠ some Backend.resetWire
  resets : setup.relaxed = true →
    let here := afterAll setup ops made
    here.state.logicFixed = true → ∀ logic, Logic.Known logic.name →
      LogicReset setup here logic (setup.transport.exchange Backend.resetWire here.link).outcome

/-- **The logic is fixed at most once unless relaxed**, over every transport and after any
operations. -/
theorem logic_kept {b : Backend} {transport : Transport σ} {link : σ} {bundle : Bundle}
    {setup : Setup σ} {s : Session σ}
    (made : Session.create b transport link bundle = .ok (setup, s)) (ops : List Operation) :
    LogicKept setup s ops := by
  obtain ⟨-, table, rfl⟩ := new_of_create made
  have new : ({ options := table } : State).LogicFits := ⟨by simp, nofun⟩
  refine ⟨?fits, ?sets, ?setsOnce, ?stays, ?neverReset, ?resets⟩
  case fits =>
    exact reached_of_conduct (P := fun _ st => st.LogicFits)
      (fun fits conduct => conduct.settles.logicFits fits) new ops
  case sets =>
    intro logic here sets
    obtain ⟨_, ⟨⟩, holds, -⟩ := (perform_uses setup _ here).settles.of_hasSetLogic sets
    exact holds
  case setsOnce =>
    intro strict
    refine countP_once State.logicFixed (fun conduct sets => ?_)
      (fun conduct => conduct.settles.logicFixed_mono) ops _
    obtain ⟨_, -, -, fixed, first⟩ := conduct.settles.of_hasSetLogic sets
    exact ⟨first strict, fixed⟩
  case stays =>
    intro strict fixed more
    rw [afterAll_append]
    refine reached_of_conduct (P := fun _ st => st.logicFixed = true ∧ st.logic = _) ?_
      ⟨fixed, rfl⟩ more
    rintro past us op answer s s' ⟨fixed, same⟩ conduct
    exact ⟨conduct.settles.logicFixed_mono fixed,
      (conduct.settles.logic_eq strict fixed).trans same⟩
  case neverReset =>
    intro strict
    refine reached_of_conduct (P := fun us _ => ∀ u ∈ us, u.wire? ≠ some Backend.resetWire) ?_
      nofun ops
    intro past us op answer s s' never conduct u is hands
    rcases List.mem_append.mp is with before | now
    · exact never u before hands
    · have relaxed := (conduct.of_reset now hands).1
      rw [strict] at relaxed
      cases relaxed
  case resets =>
    intro relaxed here fixed logic known
    exact logicReset_of_relaxed relaxed fixed known

/-- A relaxed session whose engine takes no reset. -/
theorem logic_kept_lost_reset :
    let part : Transport.Part :=
      { name := "yices", prompt := "yices > ", sendTrap := some ⟨"(reset)", "broken pipe"⟩ }
    let ops : List Operation := [.start, .setLogic ⟨"QF_LIA", none⟩, .push 2]
    ∃ setup s, Session.create Backend.yices (.scripted part) {} { relax := .bool true } =
        .ok (setup, s) ∧
      LogicKept setup s ops ∧
      (afterAll setup (ops ++ [.setLogic ⟨"qf_lra", none⟩]) s).state.logic = some "QF_LIA" ∧
      (afterAll setup (ops ++ [.setLogic ⟨"qf_lra", none⟩]) s).state.scopeDepth = 2 := by
  intro part ops
  refine ⟨_, _, rfl, ?_, by decide +kernel, by decide +kernel⟩
  exact @logic_kept _ Backend.yices (.scripted part) {} { relax := .bool true } _ _ rfl ops

end Session

end SmtSession
