import SmtSession.Proofs.Session.Operation
import SmtSession.Proofs.Session.Uses

/-!
# How an operation goes

**The conduct of an operation** relates the state before it, the uses of the
transport it makes, its answer, and the state after it. It says everything an
operation can do, over any transport: `Conduct` has one case for each way to
end, with the guard of that case, and `perform_conduct` proves that every
operation goes in one of these ways. What holds of all sessions is read off
`Conduct` by cases; no later proof opens an operation again.

`Transport.Ran` ties the uses to the memory of the transport, so that nothing
is handed over that is not among the uses.
-/

namespace SmtSession

open Transport (Use)

/-- How uses take the memory of a transport from one value to another. Each is
a call of the transport, and its outcome is what the transport gave. -/
inductive Transport.Ran (t : Transport σ) : σ → List Use → σ → Prop
  | nil (m : σ) : Ran t m [] m
  | start {m m' : σ} {us : List Use} (rest : Ran t (t.start m).next us m') :
      Ran t m (.start (t.start m).outcome :: us) m'
  | send {m m' : σ} {us : List Use} (wire : String) (rest : Ran t (t.send wire m).next us m') :
      Ran t m (.send wire (t.send wire m).outcome :: us) m'
  | exchange {m m' : σ} {us : List Use} (wire : String)
      (rest : Ran t (t.exchange wire m).next us m') :
      Ran t m (.exchange wire (t.exchange wire m).outcome :: us) m'
  | finish {m m' : σ} {us : List Use} (rest : Ran t (t.finish m).next us m') :
      Ran t m (.finish (t.finish m).outcome :: us) m'

namespace Transport.Ran

variable {t : Transport σ}

theorem append {m m' m'' : σ} {us vs : List Use} (first : t.Ran m us m') (next : t.Ran m' vs m'') :
    t.Ran m (us ++ vs) m'' := by
  induction first with
  | nil => exact next
  | start _ ih => exact .start (ih next)
  | send wire _ ih => exact .send wire (ih next)
  | exchange wire _ ih => exact .exchange wire (ih next)
  | finish _ ih => exact .finish (ih next)

/-! What uses begin with is what the transport gave. -/

variable {m m' : σ} {us : List Use}

theorem of_start {outcome : Except Fault Unit} (ran : t.Ran m (.start outcome :: us) m') :
    (t.start m).outcome = outcome ∧ t.Ran (t.start m).next us m' := by
  cases ran with
  | start rest => exact ⟨rfl, rest⟩

theorem of_send {wire : String} {outcome : Except Fault Unit}
    (ran : t.Ran m (.send wire outcome :: us) m') :
    (t.send wire m).outcome = outcome ∧ t.Ran (t.send wire m).next us m' := by
  cases ran with
  | send _ rest => exact ⟨rfl, rest⟩

theorem of_exchange {wire : String} {outcome : Except Fault String}
    (ran : t.Ran m (.exchange wire outcome :: us) m') :
    (t.exchange wire m).outcome = outcome ∧ t.Ran (t.exchange wire m).next us m' := by
  cases ran with
  | exchange _ rest => exact ⟨rfl, rest⟩

theorem of_finish {outcome : Except Fault String} (ran : t.Ran m (.finish outcome :: us) m') :
    (t.finish m).outcome = outcome ∧ t.Ran (t.finish m).next us m' := by
  cases ran with
  | finish rest => exact ⟨rfl, rest⟩

theorem of_nil (ran : t.Ran m [] m') : m' = m := by
  cases ran
  rfl

theorem of_append {vs : List Use} (ran : t.Ran m (us ++ vs) m') :
    ∃ k, t.Ran m us k ∧ t.Ran k vs m' := by
  induction us generalizing m with
  | nil => exact ⟨m, .nil m, ran⟩
  | cons u us ih =>
    cases ran with
    | start rest =>
      obtain ⟨k, first, next⟩ := ih rest
      exact ⟨k, .start first, next⟩
    | send wire rest =>
      obtain ⟨k, first, next⟩ := ih rest
      exact ⟨k, .send wire first, next⟩
    | exchange wire rest =>
      obtain ⟨k, first, next⟩ := ih rest
      exact ⟨k, .exchange wire first, next⟩
    | finish rest =>
      obtain ⟨k, first, next⟩ := ih rest
      exact ⟨k, .finish first, next⟩

/-- A watched transport remembers exactly the uses it went through. -/
theorem watched {m m' : σ × List Use} {us : List Use} (ran : t.watched.Ran m us m') :
    m'.2 = m.2 ++ us := by
  induction ran with
  | nil => exact (List.append_nil _).symm
  | start _ ih => rw [ih]; simp only [Transport.watched, watch, List.append_assoc]; rfl
  | send wire _ ih => rw [ih]; simp only [Transport.watched, watch, List.append_assoc]; rfl
  | exchange wire _ ih => rw [ih]; simp only [Transport.watched, watch, List.append_assoc]; rfl
  | finish _ ih => rw [ih]; simp only [Transport.watched, watch, List.append_assoc]; rfl

end Transport.Ran

namespace Session

/-! ## Replies and failures, apart from any session -/

/-- What the outcome of an exchange says: the reply that acknowledges the wire,
or why the wire was not acknowledged. -/
def reading (b : Backend) : Except Fault String → Except Failure String
  | .ok reply =>
    if b.reportsError reply then .error (.engine (Text.strip (b.withoutPrompt reply)))
    else .ok reply
  | .error f => .error (.fault f)

/-- The response to a failure. -/
def Failure.response (b : Backend) (command : String) (pos : Option Pos) : Failure → Response
  | .engine reply => .error reply pos
  | .refused cause at? =>
    .error (b.name ++ " " ++ command ++ " command failed: " ++ cause.message) (at?.or pos)
  | .fault f => .error (b.name ++ " " ++ command ++ " command failed: " ++ f.message) pos

/-- The response to a row of wires: a success when none failed, and otherwise
an error that says how many were acknowledged if any was. -/
def scopesResponse (b : Backend) (command : String) (count : Int) (acknowledged : Nat) :
    Option Failure → Response
  | none => .success
  | some failure =>
    let response := failure.response b command none
    if acknowledged = 0 then response
    else
      .error (response.message.getD "" ++ " (" ++ (toString acknowledged ++ " of " ++ toString count)
        ++ " acknowledged)") response.pos

/-! ## The ways to go -/

/-- How a request goes. -/
inductive Carried (b : Backend) (r : Request) (s : State) : List Use → Answer → State → Prop
  | misplaced {part : Dialect.Part} (wire : r.wire = .error (.misplaced part)) :
      Carried b r s [] (.error part) s
  | refused {cause : Dialect.Cause} {pos : Option Pos}
      (wire : r.wire = .error (.refused cause pos)) :
      Carried b r s [] (.ok (Failure.response b r.command r.pos (.refused cause pos))) s
  | unsent (wire : r.wire = .ok none) : Carried b r s [] (.ok (r.respond "")) s
  | failed {wire : String} {outcome : Except Fault String} {failure : Failure}
      (spelled : r.wire = .ok (some wire)) (read : reading b outcome = .error failure) :
      Carried b r s [.exchange wire outcome] (.ok (failure.response b r.command r.pos)) s
  | acknowledged {wire reply : String} (spelled : r.wire = .ok (some wire))
      (read : b.reportsError reply = false) :
      Carried b r s [.exchange wire (.ok reply)] (.ok (r.respond reply)) (r.accept reply s)

/-- How a wire sent up to a number of times goes: the uses, the number of
acknowledgements, and the failure that stopped the row. -/
inductive Row (b : Backend) (wire : String) : Nat → List Use → Nat → Option Failure → Prop
  | done : Row b wire 0 [] 0 none
  | stopped {n : Nat} {outcome : Except Fault String} {failure : Failure}
      (read : reading b outcome = .error failure) :
      Row b wire (n + 1) [.exchange wire outcome] 0 (some failure)
  | went {n acknowledged : Nat} {reply : String} {us : List Use} {failure : Option Failure}
      (read : b.reportsError reply = false) (rest : Row b wire n us acknowledged failure) :
      Row b wire (n + 1) (.exchange wire (.ok reply) :: us) (acknowledged + 1) failure

/-- How an operation goes, from a state: the uses of the transport, the answer,
and the state afterwards. -/
inductive Conduct (b : Backend) (relaxed : Bool) (s : State) :
    Operation → List Use → Answer → State → Prop
  | violated {op : Operation} {v : State.Violation} (check : op.violation? relaxed s = some v) :
      Conduct b relaxed s op [] (.ok (refuse v op.pos)) s
  | request {op : Operation} {r : Request} {us : List Use} {answer : Answer} {s' : State}
      (is : op.request? b = some r) (carried : Carried b r s us answer s') :
      Conduct b relaxed s op us answer s'
  | started (check : s.checkStart = none) :
      Conduct b relaxed s .start [.start (.ok ())] (.ok .success) { s with started := true }
  | notStarted {f : Fault} (check : s.checkStart = none) :
      Conduct b relaxed s .start [.start (.error f)]
        (.ok (.error ("Failed to start process " ++ b.name ++ ": " ++ f.message) none)) s
  | notEnded {sent : Except Fault Unit} {f : Fault} :
      Conduct b relaxed s .exit [.send Backend.exitWire sent, .finish (.error f)]
        (.ok (Failure.response b "exit" none (.fault f))) s
  | endedUnsent {f : Fault} {trailing : String} :
      Conduct b relaxed s .exit [.send Backend.exitWire (.error f), .finish (.ok trailing)]
        (.ok (Failure.response b "exit" none (.fault f))) { s with terminated := true }
  | endedWithError {trailing : String} (error : b.reportsError trailing = true) :
      Conduct b relaxed s .exit [.send Backend.exitWire (.ok ()), .finish (.ok trailing)]
        (.ok (.error (Text.strip trailing) none)) { s with terminated := true }
  | ended {trailing : String} (clean : b.reportsError trailing = false) :
      Conduct b relaxed s .exit [.send Backend.exitWire (.ok ()), .finish (.ok trailing)]
        (.ok .successExit) { s with terminated := true }
  | pushed {count : Int} {us : List Use} {acknowledged : Nat} {failure : Option Failure}
      (check : State.checkPush count = none)
      (row : Row b Backend.pushWire count.toNat us acknowledged failure) :
      Conduct b relaxed s (.push count) us
        (.ok (scopesResponse b "push" count acknowledged failure)) (s.moveScopes acknowledged)
  | popped {count : Int} {us : List Use} {acknowledged : Nat} {failure : Option Failure}
      (check : s.checkPop count = none)
      (row : Row b Backend.popWire count.toNat us acknowledged failure) :
      Conduct b relaxed s (.pop count) us
        (.ok (scopesResponse b "pop" count acknowledged failure)) (s.moveScopes (-acknowledged))
  | logicSet {logic : Symbol} (check : s.checkSetLogic logic.name relaxed = none)
      (free : s.logicFixed = false) :
      Conduct b relaxed s (.setLogic logic) [] (.ok .success) (s.withLogic logic.name)
  | logicReset {logic : Symbol} {us : List Use} {answer : Answer} {s' : State}
      (check : s.checkSetLogic logic.name relaxed = none) (fixed : s.logicFixed = true)
      (carried : Carried b (resetRequest logic) s us answer s') :
      Conduct b relaxed s (.setLogic logic) us answer s'
  | optionMisplaced {key : Keyword} {value : Setting} {part : Dialect.Part}
      (text : value.text = .error (.misplaced part)) :
      Conduct b relaxed s (.setOption key value) [] (.error part) s
  | optionRefused {key : Keyword} {value : Setting} {cause : Dialect.Cause} {pos : Option Pos}
      (text : value.text = .error (.refused cause pos)) :
      Conduct b relaxed s (.setOption key value) [] (.ok (.error cause.message pos)) s
  | optionSet {key : Keyword} {value : Setting} {text : String} (spelled : value.text = .ok text)
      (check : s.checkSetOption key.name text = none) :
      Conduct b relaxed s (.setOption key value) [] (.ok .success)
        { s with options := s.options.set key.name text }
  | infoMisplaced {key : Keyword} {value : Setting} {part : Dialect.Part}
      (check : State.checkSetInfo key.name = none) (text : value.text = .error (.misplaced part)) :
      Conduct b relaxed s (.setInfo key value) [] (.error part) s
  | infoRefused {key : Keyword} {value : Setting} {cause : Dialect.Cause} {pos : Option Pos}
      (check : State.checkSetInfo key.name = none)
      (text : value.text = .error (.refused cause pos)) :
      Conduct b relaxed s (.setInfo key value) [] (.ok (.error cause.message pos)) s
  | infoSet {key : Keyword} {value : Setting} {text : String}
      (check : State.checkSetInfo key.name = none) (spelled : value.text = .ok text) :
      Conduct b relaxed s (.setInfo key value) [] (.ok .success) (s.setInfo key.name text)
  | optionAnswered {key : String} :
      Conduct b relaxed s (.getOption key) []
        (.ok (match s.options.get? key with
          | some text => .ofValue text
          | none => .unsupported)) s
  | infoAnswered {key : String} :
      Conduct b relaxed s (.getInfo key) [] (.ok (information b s key)) s

/-! ## Acts go as their parts go -/

/-- From a session, an act makes some uses of the transport; `Q` relates them,
the result, and the state afterwards. -/
def Goes (t : Transport σ) (act : Act σ α) (s : Session σ) (Q : List Use → α → State → Prop) :
    Prop :=
  ∃ us, t.Ran s.link us (act.run s).2.link ∧ Q us (act.run s).1 (act.run s).2.state

namespace Goes

variable {t : Transport σ} {s : Session σ}

theorem pure {a : α} {Q : List Use → α → State → Prop} (h : Q [] a s.state) :
    Goes t (pure a) s Q :=
  ⟨[], .nil _, h⟩

theorem bind {act : Act σ α} {next : α → Act σ β} {P : List Use → α → State → Prop}
    {Q : List Use → β → State → Prop} (first : Goes t act s P)
    (rest : ∀ us a (s' : Session σ), P us a s'.state →
      Goes t (next a) s' fun vs b st => Q (us ++ vs) b st) :
    Goes t (act >>= next) s Q := by
  obtain ⟨us, ran, holds⟩ := first
  obtain ⟨vs, ran', holds'⟩ := rest us _ _ holds
  exact ⟨us ++ vs, ran.append ran', holds'⟩

theorem mono {act : Act σ α} {P Q : List Use → α → State → Prop} (first : Goes t act s P)
    (implies : ∀ us a st, P us a st → Q us a st) : Goes t act s Q := by
  obtain ⟨us, ran, holds⟩ := first
  exact ⟨us, ran, implies _ _ _ holds⟩

/-- An act that only changes the state, or only adds to the records, makes no
use of the transport. -/
theorem quiet_bind {act : Act σ α} {next : α → Act σ β} {Q : List Use → β → State → Prop}
    (link : (act.run s).2.link = s.link)
    (rest : Goes t (next (act.run s).1) (act.run s).2 Q) : Goes t (act >>= next) s Q := by
  obtain ⟨us, ran, holds⟩ := rest
  rw [link] at ran
  exact ⟨us, ran, holds⟩

/-- Looking at the session makes none either. -/
theorem get_bind {next : Session σ → Act σ β} {Q : List Use → β → State → Prop}
    (rest : Goes t (next s) s Q) : Goes t (get >>= next) s Q :=
  quiet_bind rfl rest

theorem map {act : Act σ α} {g : α → β} {Q : List Use → β → State → Prop}
    (first : Goes t act s fun us a st => Q us (g a) st) : Goes t (g <$> act) s Q :=
  first

end Goes

section

variable {setup : Setup σ} {s : Session σ}

/-- What exchanging a wire gives, and the session after it. -/
theorem transact_run (wire : String) :
    (transact setup wire).run s =
      (reading setup.backend (setup.transport.exchange wire s.link).outcome,
        { s with
          link := (setup.transport.exchange wire s.link).next
          log := s.log ++ (setup.transport.exchange wire s.link).log }) := by
  show ((match (setup.transport.exchange wire s.link).outcome with
    | .ok reply => _
    | .error f => _ : Act σ (Except Failure String)).run _) = _
  cases (setup.transport.exchange wire s.link).outcome with
  | ok reply => rfl
  | error f => rfl

theorem transact_goes (wire : String) :
    Goes setup.transport (transact setup wire) s fun us result st =>
      ∃ outcome, us = [.exchange wire outcome] ∧ result = reading setup.backend outcome ∧
        st = s.state := by
  rw [Goes, transact_run]
  exact ⟨_, .exchange wire (.nil _), _, rfl, rfl, rfl⟩

theorem fail_run (setup : Setup σ) (s : Session σ) (command : String) (failure : Failure)
    (pos : Option Pos) :
    ∃ log, (fail setup command failure pos).run s =
      (failure.response setup.backend command pos, { s with log := log }) := by
  cases failure with
  | engine reply => exact ⟨s.log, rfl⟩
  | refused cause at? => exact ⟨s.log, rfl⟩
  | fault f => exact ⟨_, rfl⟩

theorem fail_goes (command : String) (failure : Failure) (pos : Option Pos) :
    Goes setup.transport (fail setup command failure pos) s fun us response st =>
      us = [] ∧ response = failure.response setup.backend command pos ∧ st = s.state := by
  obtain ⟨log, run⟩ := fail_run setup s command failure pos
  rw [Goes, run]
  exact ⟨[], .nil _, rfl, rfl, rfl⟩

/-- A reply without the error mark is an acknowledgement. -/
theorem reading_of_clean {b : Backend} {reply : String} (clean : b.reportsError reply = false) :
    reading b (.ok reply) = .ok reply := by
  rw [reading, clean]
  rfl

/-- A reply that is read as an acknowledgement is the outcome, and bears no
error mark. -/
theorem reading_eq_ok {b : Backend} {outcome : Except Fault String} {reply : String}
    (h : reading b outcome = .ok reply) :
    outcome = .ok reply ∧ b.reportsError reply = false := by
  cases outcome with
  | error f => cases h
  | ok text =>
    simp only [reading] at h
    split at h
    · cases h
    · next clean =>
      cases h
      exact ⟨rfl, by simpa using clean⟩

theorem carryOut_goes (r : Request) :
    Goes setup.transport (carryOut setup r) s fun us answer st =>
      Carried setup.backend r s.state us answer st := by
  unfold carryOut
  split
  · next part wire => exact .pure (.misplaced wire)
  · next cause pos wire =>
    exact Goes.bind (fail_goes _ _ _) fun us a s' ⟨hus, ha, hs⟩ => by
      subst hus ha
      exact .pure (hs ▸ .refused wire)
  · next wire => exact .pure (.unsent wire)
  · next wire spelled =>
    refine Goes.bind (transact_goes wire) ?_
    rintro us result s' ⟨outcome, hus, hresult, hs⟩
    subst hus
    cases result with
    | error failure =>
      exact Goes.bind (fail_goes _ _ _) fun us a s'' ⟨hus', ha, hs'⟩ => by
        subst hus' ha
        exact .pure (hs' ▸ hs ▸ .failed spelled hresult.symm)
    | ok reply =>
      obtain ⟨rfl, clean⟩ := reading_eq_ok hresult.symm
      exact Goes.quiet_bind rfl (.pure (hs ▸ .acknowledged spelled clean))

theorem repeatWire_goes (wire : String) (n : Nat) (s : Session σ) :
    Goes setup.transport (repeatWire setup wire n) s fun us result st =>
      Row setup.backend wire n us result.1 result.2 ∧ st = s.state := by
  induction n generalizing s with
  | zero => exact .pure ⟨.done, rfl⟩
  | succ n ih =>
    refine Goes.bind (transact_goes wire) ?_
    rintro us result s' ⟨outcome, hus, hresult, hs⟩
    subst hus
    cases result with
    | error failure => exact .pure ⟨.stopped hresult.symm, hs⟩
    | ok reply =>
      obtain ⟨rfl, clean⟩ := reading_eq_ok hresult.symm
      exact Goes.bind (ih s') fun vs result s'' ⟨row, hs'⟩ =>
        .pure ⟨by simpa using Row.went clean row, hs'.trans hs⟩

theorem moveScopes_goes (command wire : String) (sign count : Int) :
    Goes setup.transport (moveScopes setup command wire sign count) s fun us response st =>
      ∃ acknowledged failure, Row setup.backend wire count.toNat us acknowledged failure ∧
        response = scopesResponse setup.backend command count acknowledged failure ∧
        st = s.state.moveScopes (sign * acknowledged) := by
  refine Goes.bind (repeatWire_goes wire count.toNat s) ?_
  rintro us result s' ⟨row, hs⟩
  obtain ⟨acknowledged, failure⟩ := result
  refine Goes.quiet_bind rfl ?_
  rw [← hs]
  cases failure with
  | none => exact .pure ⟨acknowledged, none, by simpa using row, rfl, rfl⟩
  | some failure =>
    refine Goes.bind (fail_goes _ _ _) ?_
    rintro vs response s'' ⟨hvs, hresponse, hs'⟩
    subst hvs hresponse
    split
    · next zero =>
      exact .pure ⟨acknowledged, some failure, by simpa using row,
        by simp [scopesResponse, zero], hs'⟩
    · next some =>
      exact Goes.quiet_bind rfl (Goes.quiet_bind rfl (.pure
        ⟨acknowledged, _, by simpa using row, by simp only [scopesResponse, if_neg some], hs'⟩))

theorem Conduct.of_eq {b : Backend} {relaxed : Bool} {st s' s'' : State} {op : Operation}
    {us : List Use} {answer : Answer} (same : s'' = s') (h : Conduct b relaxed st op us answer s') :
    Conduct b relaxed st op us answer s'' :=
  same ▸ h

/-- An act of a session goes as the conduct of an operation says. -/
abbrev Follows (setup : Setup σ) (op : Operation) (act : Act σ Answer) (s : Session σ) : Prop :=
  Goes setup.transport act s (Conduct setup.backend setup.relaxed s.state op)

theorem start_goes : Follows setup .start (Except.ok <$> start setup) s := by
  refine Goes.map (Goes.get_bind ?_)
  dsimp only
  cases check : s.state.checkStart with
  | some v => exact .pure (Conduct.violated check)
  | none =>
    refine Goes.bind ⟨_, .start (.nil _), rfl, rfl⟩ (P := fun us outcome st =>
      us = [.start outcome] ∧ st = s.state) fun us outcome s' ⟨hus, hs⟩ => ?_
    subst hus
    cases outcome with
    | error f => exact Goes.quiet_bind rfl (.pure (.of_eq hs (.notStarted check)))
    | ok done =>
      have marked := congrArg (fun st : State => { st with started := true }) hs
      exact Goes.quiet_bind rfl (Goes.quiet_bind rfl (.pure (.of_eq marked (.started check))))

theorem exit_goes : Follows setup .exit (Except.ok <$> exit setup) s := by
  refine Goes.map (Goes.bind ⟨_, .send Backend.exitWire (.nil _), rfl, rfl⟩ (P := fun us sent st =>
    us = [.send Backend.exitWire sent] ∧ st = s.state) fun us sent s' ⟨hus, hs⟩ => ?_)
  subst hus
  refine Goes.bind ⟨_, .finish (.nil _), rfl, rfl⟩ (P := fun us outcome st =>
    us = [.finish outcome] ∧ st = s'.state) fun us outcome s'' ⟨hus, hs'⟩ => ?_
  subst hus
  rw [hs] at hs'
  cases outcome with
  | error f =>
    exact (fail_goes _ _ _).mono fun us response st ⟨hus, hresponse, hst⟩ => by
      subst hus hresponse
      exact .of_eq (hst.trans hs') .notEnded
  | ok trailing =>
    refine Goes.quiet_bind rfl (Goes.quiet_bind rfl ?_)
    have ended := congrArg (fun st : State => { st with terminated := true }) hs'
    cases sent with
    | error f =>
      exact (fail_goes _ _ _).mono fun us response st ⟨hus, hresponse, hst⟩ => by
        subst hus hresponse
        exact .of_eq (hst.trans ended) .endedUnsent
    | ok done =>
      show Goes _ (if setup.backend.reportsError trailing then _ else _) _ _
      split
      · next error => exact .pure (.of_eq ended (.endedWithError error))
      · next clean => exact .pure (.of_eq ended (.ended (by simpa using clean)))

theorem push_goes (count : Int) :
    Follows setup (.push count) (Except.ok <$> push setup count) s := by
  refine Goes.map ?_
  unfold push
  split
  · next v check => exact .pure (Conduct.violated check)
  · next check =>
    refine (moveScopes_goes "push" Backend.pushWire 1 count).mono ?_
    rintro us response st ⟨acknowledged, failure, row, rfl, rfl⟩
    rw [Int.one_mul]
    exact .pushed check row

theorem pop_goes (count : Int) : Follows setup (.pop count) (Except.ok <$> pop setup count) s := by
  refine Goes.map (Goes.get_bind ?_)
  cases check : s.state.checkPop count with
  | some v => exact .pure (Conduct.violated check)
  | none =>
    refine (moveScopes_goes "pop" Backend.popWire (-1) count).mono ?_
    rintro us response st ⟨acknowledged, failure, row, rfl, rfl⟩
    rw [Int.neg_one_mul]
    exact .popped check row

theorem setLogic_goes (logic : Symbol) :
    Follows setup (.setLogic logic) (setLogic setup logic) s := by
  refine Goes.get_bind ?_
  dsimp only
  cases check : s.state.checkSetLogic logic.name setup.relaxed with
  | some v => exact .pure (Conduct.violated check)
  | none =>
    show Goes _ (if s.state.logicFixed then _ else _) s _
    split
    · next fixed =>
      exact (carryOut_goes (resetRequest logic)).mono fun us answer st carried =>
        .logicReset check fixed carried
    · next free => exact Goes.quiet_bind rfl (.pure (.logicSet check (by simpa using free)))

theorem setOption_goes (key : Keyword) (value : Setting) :
    Follows setup (.setOption key value) (setOption key value) s := by
  unfold setOption
  split
  · next part text => exact .pure (.optionMisplaced text)
  · next cause pos text => exact .pure (.optionRefused text)
  · next text spelled =>
    refine Goes.get_bind ?_
    unfold State.setOption
    cases check : s.state.checkSetOption key.name text with
    | some v =>
      refine .pure (Conduct.violated ?_)
      simpa only [Operation.violation?, spelled] using check
    | none => exact Goes.quiet_bind rfl (.pure (.optionSet spelled check))

theorem setInfo_goes (key : Keyword) (value : Setting) :
    Follows setup (.setInfo key value) (setInfo key value) s := by
  unfold setInfo
  split
  · next v check => exact .pure (Conduct.violated check)
  · next check =>
    split
    · next part text => exact .pure (.infoMisplaced check text)
    · next cause pos text => exact .pure (.infoRefused check text)
    · next text spelled => exact Goes.quiet_bind rfl (.pure (.infoSet check spelled))

theorem getOption_goes (key : String) :
    Follows setup (.getOption key) (Except.ok <$> getOption key) s := by
  refine Goes.map (Goes.get_bind ?_)
  have answered : Conduct setup.backend setup.relaxed s.state (.getOption key) [] _ s.state :=
    .optionAnswered
  cases found : s.state.options.get? key with
  | some text => rw [found] at answered; exact .pure answered
  | none => rw [found] at answered; exact .pure answered

theorem perform_goes (op : Operation) : Follows setup op (perform setup op) s := by
  cases is : op.request? setup.backend with
  | some r =>
    rw [Follows, perform_of_request setup is]
    exact (carryOut_goes r).mono fun us answer st carried => .request is carried
  | none =>
    cases op with
    | start => exact start_goes
    | exit => exact exit_goes
    | push count => exact push_goes count
    | pop count => exact pop_goes count
    | setLogic logic => exact setLogic_goes logic
    | setOption key value => exact setOption_goes key value
    | getOption key => exact getOption_goes key
    | setInfo key value => exact setInfo_goes key value
    | getInfo key => exact Goes.map (Goes.quiet_bind rfl (.pure .infoAnswered))
    | _ => cases is

end

/-- **Every operation goes in one of the ways of `Conduct`**, over any
transport, and makes no other use of the transport than those it names. -/
theorem perform_conduct (setup : Setup σ) (op : Operation) (s : Session σ) :
    ∃ us, setup.transport.Ran s.link us ((perform setup op).run s).2.link ∧
      Conduct setup.backend setup.relaxed s.state op us ((perform setup op).run s).1
        ((perform setup op).run s).2.state :=
  perform_goes op

/-- The uses of an operation are those of its conduct. -/
theorem perform_uses (setup : Setup σ) (op : Operation) (s : Session σ) :
    Conduct setup.backend setup.relaxed s.state op (uses setup op s)
      ((perform setup op).run s).1 ((perform setup op).run s).2.state := by
  obtain ⟨us, ran, conduct⟩ := perform_conduct setup.watched op (s.watch [])
  have same : uses setup op s = us := ran.watched
  rw [same, perform_watch setup op [] s]
  exact conduct

end Session

end SmtSession
