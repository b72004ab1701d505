import SmtSession.Execution
import SmtSession.Proofs.Session.Conduct

/-!
# Runs of operations

**A run** carries out operations one behind the other, from a session that was
made over some transport. `afterAll` is the session behind a run, `history` what
the run did with the transport. `reached_of_conduct` is the one induction over runs:
what holds of a new session, and is kept by every way an operation can go, holds of
every session that is reached, with its history.
-/

namespace SmtSession

open Transport (Use)

namespace Session

/-- The session after an operation. -/
def after (setup : Setup σ) (s : Session σ) (op : Operation) : Session σ :=
  ((perform setup op).run s).2

/-- The session after several operations. -/
def afterAll (setup : Setup σ) (ops : List Operation) (s : Session σ) : Session σ :=
  ops.foldl (after setup) s

/-- What several operations do with the transport, in order. -/
def history (setup : Setup σ) : List Operation → Session σ → List Use
  | [], _ => []
  | op :: ops, s => uses setup op s ++ history setup ops (after setup s op)

/-- **What every conduct keeps, every run keeps.** The property is one of the uses up to
now and of the state behind them. -/
theorem reached_of_conduct {setup : Setup σ} {P : List Use → State → Prop}
    (kept : ∀ {past us op answer s s'}, P past s →
      Conduct setup.backend setup.relaxed s op us answer s' → P (past ++ us) s')
    {s : Session σ} (new : P [] s.state) (ops : List Operation) :
    P (history setup ops s) (afterAll setup ops s).state := by
  -- The uses up to now grow at their end, and the run goes on from its front.
  suffices behind : ∀ past (s : Session σ), P past s.state →
      P (past ++ history setup ops s) (afterAll setup ops s).state from behind [] s new
  induction ops with
  | nil =>
    intro past s holds
    rw [history, List.append_nil]
    exact holds
  | cons op ops ih =>
    intro past s holds
    rw [history, ← List.append_assoc]
    exact ih _ (after setup s op) (kept holds (perform_uses setup op s))

/-! ## New sessions -/

/-- The options of a bundle are all that it puts into a new state. -/
theorem setOptions_eq_ok {s s' : State} {options : List (String × String)}
    (set : Bundle.setOptions s options = .ok s') : ∃ table, s' = { s with options := table } := by
  induction options generalizing s with
  | nil => exact ⟨_, (Except.ok.inj set).symm⟩
  | cons option options ih =>
    obtain ⟨key, text⟩ := option
    unfold Bundle.setOptions State.setOption at set
    cases check : s.checkSetOption key text with
    | some v => simp [check] at set
    | none =>
      simp only [check] at set
      obtain ⟨table, rfl⟩ := ih set
      exact ⟨table, rfl⟩

/-- A new session has the state that its bundle makes of the options it stands for. -/
theorem initial_of_create {b : Backend} {transport : Transport σ} {link : σ} {bundle : Bundle}
    {setup : Setup σ} {s : Session σ}
    (made : Session.create b transport link bundle = .ok (setup, s)) :
    setup = ⟨b, transport, bundle.relax.truthy, bundle.verbose.truthy⟩ ∧
      ∃ options state, bundle.options = .ok options ∧ Bundle.setOptions {} options = .ok state ∧
        s = { state := state, link := link } := by
  rw [Session.create] at made
  split at made
  · cases made
  cases initial : bundle.initialState with
  | error cause => simp [initial] at made
  | ok state =>
    simp only [initial] at made
    cases made
    cases chosen : bundle.options with
    | error cause => simp [Bundle.initialState, chosen, bind, Except.bind] at initial
    | ok options =>
      have set : Bundle.setOptions {} options = .ok state := by
        simpa [Bundle.initialState, chosen, bind, Except.bind] using initial
      exact ⟨rfl, options, state, rfl, set, rfl⟩

/-- What a new session is like, whatever the bundle. -/
theorem new_of_create {b : Backend} {transport : Transport σ} {link : σ} {bundle : Bundle}
    {setup : Setup σ} {s : Session σ}
    (made : Session.create b transport link bundle = .ok (setup, s)) :
    setup = ⟨b, transport, bundle.relax.truthy, bundle.verbose.truthy⟩ ∧
      ∃ table, s = { state := { options := table }, link := link } := by
  obtain ⟨rfl, options, state, -, set, rfl⟩ := initial_of_create made
  obtain ⟨table, rfl⟩ := setOptions_eq_ok set
  exact ⟨rfl, table, rfl⟩

end Session

end SmtSession
