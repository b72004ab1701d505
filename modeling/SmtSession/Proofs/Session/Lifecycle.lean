import SmtSession.Proofs.Session.Scopes
import SmtSession.Transport.Scripted

/-!
# The life of a session

**A session is alive exactly while its transport runs**: `lifecycle_mirrored`. It is
fresh up to a start that succeeds, and over once an exit returned; what failed on the way
can be tried again. Over any transport that keeps the laws of `Transport.Lifecycle`, a
session knows the phase it is in from what it did, and hands over no wire in another. The
laws of its starts and ends alone, `Transport.Switched`, are too few for that.

A use of the transport is possible in some phases only, and takes a life to its next
phase: `Phase.Turn`. What an operation does is a course of such turns
(`Conduct.course`), and so is what a run does (`course_of_run`); the rest is read off
courses.
-/

namespace SmtSession

open Transport (Use)

/-! ## Transports that run -/

/-- What it is for a transport to be started and ended, by whether it runs: a start that
succeeds makes it run, an end that returns stops it, and one that fails leaves that as it
is. While it is stopped there is nobody to take a wire. -/
structure Transport.Switched (t : Transport σ) (running : σ → Prop) : Prop where
  started : ∀ {m}, ¬ running m → (t.start m).outcome = .ok () → running (t.start m).next
  notStarted : ∀ {m f}, ¬ running m → (t.start m).outcome = .error f → ¬ running (t.start m).next
  ended : ∀ {m text}, (t.finish m).outcome = .ok text → ¬ running (t.finish m).next
  notEnded : ∀ {m f}, (t.finish m).outcome = .error f → (running (t.finish m).next ↔ running m)
  sent : ∀ {wire m}, (t.send wire m).outcome = .ok () → running m
  exchanged : ∀ {wire m reply}, (t.exchange wire m).outcome = .ok reply → running m

/-- What it is for a transport to run from its start up to its end: nothing else changes
whether it runs, and while it is stopped there is nothing to end. -/
structure Transport.Lifecycle (t : Transport σ) (running : σ → Prop) : Prop extends
    t.Switched running where
  sending : ∀ wire m, running (t.send wire m).next ↔ running m
  exchanging : ∀ wire m, running (t.exchange wire m).next ↔ running m
  running_of_ended : ∀ {m text}, (t.finish m).outcome = .ok text → running m

namespace Transport

variable {p : Part} {wire : String} {m : Played}

/-- Handing a wire over does not change whether a part is played. -/
theorem Part.send_running : (p.send wire m).next.running = m.running := by
  unfold Part.send
  split
  · cases Trap.fault? p.sendTrap wire with
    | none => rfl
    | some f => rfl
  · rfl

theorem Part.running_of_sent (ok : (p.send wire m).outcome = .ok ()) : m.running = true := by
  unfold Part.send at ok
  split at ok
  · next running => exact running
  · cases ok

theorem Part.reply_running : (p.reply wire m).next.running = m.running := by
  unfold Part.reply
  split
  · rfl
  · split
    · rfl
    · rfl

/-- A scripted transport keeps the laws, unless it is to fail at its end. -/
theorem scripted_lifecycle (p : Part) (ends : p.finishFault = none) :
    (scripted p).Lifecycle fun m => m.running = true where
  started {m} stopped ok := by
    simp only [scripted, Part.start] at ok ⊢
    cases fault : p.startFault with
    | some f => simp [fault] at ok
    | none => simp [stopped]
  notStarted {m f} stopped error := by
    simp only [scripted, Part.start] at error ⊢
    cases fault : p.startFault with
    | some f => simpa using stopped
    | none => simp [fault, stopped] at error
  ended {m text} ok := by
    simp only [scripted, Part.finish, ends] at ok ⊢
    cases running : m.running with
    | false => simp [running] at ok
    | true => simp
  notEnded {m f} error := by
    simp only [scripted, Part.finish, ends] at error ⊢
    cases running : m.running with
    | false => simp [running]
    | true => simp [running] at error
  sent ok := Part.running_of_sent ok
  exchanged {wire m reply} ok := by
    simp only [scripted, Part.exchange] at ok
    cases sent : (p.send wire m).outcome with
    | error f => simp [sent] at ok
    | ok done => exact Part.running_of_sent sent
  sending wire m := by
    rw [scripted, Part.send_running]
  exchanging wire m := by
    simp only [scripted, Part.exchange]
    split
    · rw [Part.send_running]
    · split
      · rw [Part.send_running]
      · rw [Part.reply_running, Part.send_running]
  running_of_ended {m text} ok := by
    simp only [scripted, Part.finish] at ok
    cases running : m.running with
    | false => simp [running] at ok
    | true => rfl

end Transport

/-! ## Phases -/

/-- Where a session is in its life. -/
inductive Phase
  | fresh
  | live
  | closed
  deriving DecidableEq

/-- The phase that a session knows it is in. -/
def State.phase (s : State) : Phase :=
  if s.terminated then .closed else if s.started then .live else .fresh

theorem State.phase_eq_live (s : State) :
    s.phase = .live ↔ s.started = true ∧ s.terminated = false := by
  unfold State.phase
  split <;> simp_all

theorem State.phase_eq_closed (s : State) : s.phase = .closed ↔ s.terminated = true := by
  unfold State.phase
  split
  · next closed => simp [closed]
  · next lasting =>
    rw [iff_false_right lasting]
    split
    · exact nofun
    · exact nofun

/-- The wire that a use delivered: it was handed over, and that did not fail. -/
def Transport.Use.delivered? : Use → Option String
  | .send wire (.ok _) => some wire
  | .exchange wire (.ok _) => some wire
  | _ => none

namespace Phase

/-- What one use of a transport can be in a phase, and the phase behind it. -/
inductive Turn : Phase → Use → Phase → Prop
  | started : Turn .fresh (.start (.ok ())) .live
  | notStarted {f : Fault} : Turn .fresh (.start (.error f)) .fresh
  | sent {wire : String} : Turn .live (.send wire (.ok ())) .live
  | notSent {p : Phase} {wire : String} {f : Fault} : Turn p (.send wire (.error f)) p
  | exchanged {wire reply : String} : Turn .live (.exchange wire (.ok reply)) .live
  | notExchanged {p : Phase} {wire : String} {f : Fault} : Turn p (.exchange wire (.error f)) p
  | ended {text : String} : Turn .live (.finish (.ok text)) .closed
  | notEnded {p : Phase} {f : Fault} : Turn p (.finish (.error f)) p

/-- How uses take a life from one phase to another. -/
inductive Course : Phase → List Use → Phase → Prop
  | nil (p : Phase) : Course p [] p
  | cons {p q r : Phase} {u : Use} {us : List Use} (turn : Turn p u q) (rest : Course q us r) :
      Course p (u :: us) r

variable {p q r : Phase} {u : Use} {us vs : List Use}

/-- A fresh life changes with a start that succeeds, and no life becomes fresh again. -/
theorem Turn.begun_iff (turn : Turn p u q) : q ≠ .fresh ↔ p ≠ .fresh ∨ u = .start (.ok ()) := by
  cases turn <;> simp

/-- A life is over with an end that returned, and then for good. -/
theorem Turn.closed_iff (turn : Turn p u q) :
    q = .closed ↔ p = .closed ∨ ∃ text, u = .finish (.ok text) := by
  cases turn <;> simp

/-- Wires are delivered to the living. -/
theorem Turn.live_of_delivered {wire : String} (turn : Turn p u q)
    (delivered : u.delivered? = some wire) : p = .live := by
  cases turn with
  | sent | exchanged => rfl
  | _ => cases delivered

namespace Course

theorem append (first : Course p us q) (next : Course q vs r) : Course p (us ++ vs) r := by
  induction first with
  | nil => exact next
  | cons turn _ ih => exact .cons turn (ih next)

theorem of_append (whole : Course p (us ++ vs) r) : ∃ q, Course p us q ∧ Course q vs r := by
  induction us generalizing p with
  | nil => exact ⟨p, .nil p, whole⟩
  | cons u us ih =>
    cases whole with
    | cons turn rest =>
      obtain ⟨q, first, next⟩ := ih rest
      exact ⟨q, .cons turn first, next⟩

theorem begun_iff (course : Course p us q) :
    q ≠ .fresh ↔ p ≠ .fresh ∨ .start (.ok ()) ∈ us := by
  induction course with
  | nil => simp
  | cons turn _ ih => rw [ih, turn.begun_iff, List.mem_cons, or_assoc, eq_comm]

theorem closed_iff (course : Course p us q) :
    q = .closed ↔ p = .closed ∨ ∃ text, .finish (.ok text) ∈ us := by
  induction course with
  | nil => simp
  | cons turn _ ih => simp only [ih, turn.closed_iff, List.mem_cons, or_assoc, exists_or, eq_comm]

/-- **A life goes on from the start that succeeded to the end that returned.** -/
theorem live_iff (course : Course .fresh us q) :
    q = .live ↔ .start (.ok ()) ∈ us ∧ ∀ text, .finish (.ok text) ∉ us := by
  have begun : q ≠ .fresh ↔ .start (.ok ()) ∈ us := by simp [course.begun_iff]
  have closed : q = .closed ↔ ∃ text, .finish (.ok text) ∈ us := by simp [course.closed_iff]
  rw [← begun, ← not_exists, ← closed]
  cases q with
  | fresh | live | closed => simp

/-- **A transport runs in the live phase of a course**, and in no other. -/
theorem running_iff {t : Transport σ} {running : σ → Prop} (laws : t.Lifecycle running)
    {m m' : σ} (course : Course p us q) (ran : t.Ran m us m') (mirrored : running m ↔ p = .live) :
    running m' ↔ q = .live := by
  induction course generalizing m with
  | nil =>
    rw [ran.of_nil]
    exact mirrored
  | cons turn _ ih =>
    cases turn with
    | started =>
      obtain ⟨outcome, ran⟩ := ran.of_start
      exact ih ran (iff_of_true (laws.started (by simp [mirrored]) outcome) rfl)
    | notStarted =>
      obtain ⟨outcome, ran⟩ := ran.of_start
      exact ih ran (iff_of_false (laws.notStarted (by simp [mirrored]) outcome) nofun)
    | sent | notSent =>
      obtain ⟨-, ran⟩ := ran.of_send
      exact ih ran ((laws.sending _ m).trans mirrored)
    | exchanged | notExchanged =>
      obtain ⟨-, ran⟩ := ran.of_exchange
      exact ih ran ((laws.exchanging _ m).trans mirrored)
    | ended =>
      obtain ⟨outcome, ran⟩ := ran.of_finish
      exact ih ran (iff_of_false (laws.ended outcome) nofun)
    | notEnded =>
      obtain ⟨outcome, ran⟩ := ran.of_finish
      exact ih ran ((laws.notEnded outcome).trans mirrored)

end Course

end Phase

/-! ## What operations do -/

namespace Session

open Phase (Course Turn)

/-- What an operation can do to the life of a session: start it, end it, fail at that, or
exchange some wires and leave it alone. -/
inductive Passage (s s' : State) : List Use → Prop
  | started (fresh : s.started = false) (marked : s' = { s with started := true }) :
      Passage s s' [.start (.ok ())]
  | notStarted {f : Fault} (fresh : s.started = false) (same : s' = s) :
      Passage s s' [.start (.error f)]
  | ended {wire text : String} {sent : Except Fault Unit}
      (marked : s' = { s with terminated := true }) :
      Passage s s' [.send wire sent, .finish (.ok text)]
  | notEnded {wire : String} {sent : Except Fault Unit} {f : Fault} (same : s' = s) :
      Passage s s' [.send wire sent, .finish (.error f)]
  | steady {us : List Use} (exchanges : ∀ u ∈ us, ∃ wire outcome, u = .exchange wire outcome)
      (started : s'.started = s.started) (terminated : s'.terminated = s.terminated) :
      Passage s s' us

namespace Passage

variable {b : Backend} {s s' : State} {us : List Use} {answer : Answer}

/-- Doing nothing is a passage. -/
theorem still (s : State) : Passage s s [] :=
  .steady nofun rfl rfl

theorem of_carried {r : Request} (carried : Carried b r s us answer s')
    (started : ∀ reply, (r.accept reply s).started = s.started)
    (terminated : ∀ reply, (r.accept reply s).terminated = s.terminated) : Passage s s' us := by
  cases carried with
  | misplaced | refused | unsent => exact .still s
  | @failed wire outcome => exact .steady (by simp) rfl rfl
  | @acknowledged wire reply => exact .steady (by simp) (started reply) (terminated reply)

theorem of_row {wire : String} {n acknowledged : Nat} {failure : Option Failure}
    (row : Row b wire n us acknowledged failure) (delta : Int) :
    Passage s (s.moveScopes delta) us := by
  obtain ⟨outcomes, rfl, -⟩ := row.outcomes
  rw [State.moveScopes_eq]
  exact .steady (by simp) rfl rfl

end Passage

/-- Accepting a reply to a request is nothing to the life of a session. -/
theorem accept_phase {b : Backend} {op : Operation} {r : Request} (is : op.request? b = some r)
    (reply : String) (s : State) :
    (r.accept reply s).started = s.started ∧ (r.accept reply s).terminated = s.terminated := by
  obtain ⟨verdict, accepted⟩ := accept_eq is reply s
  rw [accepted]
  exact ⟨rfl, rfl⟩

/-- **Every way an operation can go is a passage.** -/
theorem Conduct.passage {b : Backend} {relaxed : Bool} {s s' : State} {op : Operation}
    {us : List Use} {answer : Answer} (conduct : Conduct b relaxed s op us answer s') :
    Passage s s' us := by
  have fresh (check : s.checkStart = none) : s.started = false := by
    simpa [State.checkStart] using check
  cases conduct with
  | request is carried =>
    exact .of_carried carried (fun reply => (accept_phase is reply s).1)
      fun reply => (accept_phase is reply s).2
  | started check => exact .started (fresh check) rfl
  | notStarted check => exact .notStarted (fresh check) rfl
  | notEnded => exact .notEnded rfl
  | endedUnsent | endedWithError | ended => exact .ended rfl
  | pushed check row => exact .of_row row _
  | popped check row => exact .of_row row _
  | logicSet => exact .steady nofun rfl rfl
  | logicReset check fixed carried => exact .of_carried carried (fun _ => rfl) fun _ => rfl
  | optionSet | infoSet => exact .steady nofun rfl rfl
  | violated | optionMisplaced | optionRefused | infoMisplaced | infoRefused | optionAnswered
  | infoAnswered => exact .still s

/-! ## Sessions and their transports -/

/-- The session and its transport agree, and an end has a beginning. -/
structure InStep (running : σ → Prop) (m : σ) (s : State) : Prop where
  mirrored : running m ↔ s.phase = .live
  begun : s.terminated = true → s.started = true

variable {t : Transport σ} {running : σ → Prop} (laws : t.Lifecycle running) {m m' : σ}

include laws

/-- Handing over a wire is a turn of any phase that the transport agrees with. -/
theorem send_turn {p : Phase} (mirrored : running m ↔ p = .live) (wire : String) :
    Turn p (.send wire (t.send wire m).outcome) p := by
  cases outcome : (t.send wire m).outcome with
  | error f => exact .notSent
  | ok done =>
    rw [mirrored.mp (laws.sent outcome)]
    exact .sent

theorem exchange_turn {p : Phase} (mirrored : running m ↔ p = .live) (wire : String) :
    Turn p (.exchange wire (t.exchange wire m).outcome) p := by
  cases outcome : (t.exchange wire m).outcome with
  | error f => exact .notExchanged
  | ok reply =>
    rw [mirrored.mp (laws.exchanged outcome)]
    exact .exchanged

/-- Exchanging wires goes on in the same phase. -/
theorem exchanges_course {p : Phase} {us : List Use} (mirrored : running m ↔ p = .live)
    (ran : t.Ran m us m') (exchanges : ∀ u ∈ us, ∃ wire outcome, u = .exchange wire outcome) :
    Course p us p := by
  induction ran with
  | nil => exact .nil p
  | exchange wire rest ih =>
    have rest := ih ((laws.exchanging wire _).trans mirrored) fun u is =>
      exchanges u (List.mem_cons_of_mem _ is)
    exact .cons (exchange_turn laws mirrored wire) rest
  | start rest | send wire rest | finish rest =>
    obtain ⟨wire, outcome, other⟩ := exchanges _ List.mem_cons_self
    cases other

omit laws in
/-- What has not started is fresh: it cannot be over either. -/
theorem InStep.fresh {s : State} (inStep : InStep running m s) (unstarted : s.started = false) :
    s.terminated = false ∧ s.phase = .fresh := by
  have lasting : s.terminated = false := by
    by_contra closed
    have started := inStep.begun (by simpa using closed)
    rw [unstarted] at started
    cases started
  exact ⟨lasting, by simp [State.phase, lasting, unstarted]⟩

/-- **A passage is a course of turns** from one phase of the session to the next. -/
theorem Passage.course {s s' : State} {us : List Use} (passage : Passage s s' us)
    (ran : t.Ran m us m') (inStep : InStep running m s) : Course s.phase us s'.phase := by
  cases passage with
  | started unstarted marked =>
    obtain ⟨lasting, fresh⟩ := inStep.fresh unstarted
    have live : s'.phase = .live := by simp [State.phase, marked, lasting]
    rw [fresh, live]
    exact .cons .started (.nil _)
  | notStarted unstarted same =>
    rw [same, (inStep.fresh unstarted).2]
    exact .cons .notStarted (.nil _)
  | @ended wire text sent marked =>
    obtain ⟨was, ran⟩ := ran.of_send
    obtain ⟨outcome, -⟩ := ran.of_finish
    have live := inStep.mirrored.mp ((laws.sending wire m).mp (laws.running_of_ended outcome))
    have closed : s'.phase = .closed := by simp [State.phase, marked]
    have turn := send_turn laws inStep.mirrored wire
    rw [was, live] at turn
    rw [live, closed]
    exact .cons turn (.cons .ended (.nil _))
  | @notEnded wire sent f same =>
    obtain ⟨was, -⟩ := ran.of_send
    have turn := send_turn laws inStep.mirrored wire
    rw [was] at turn
    rw [same]
    exact .cons turn (.cons .notEnded (.nil _))
  | steady exchanges started terminated =>
    have same : s'.phase = s.phase := by simp only [State.phase, started, terminated]
    rw [same]
    exact exchanges_course laws inStep.mirrored ran exchanges

/-- A passage keeps a session in step with its transport. -/
theorem Passage.inStep {s s' : State} {us : List Use} (passage : Passage s s' us)
    (ran : t.Ran m us m') (inStep : InStep running m s) : InStep running m' s' := by
  refine ⟨(passage.course laws ran inStep).running_iff laws ran inStep.mirrored, ?_⟩
  cases passage with
  | started unstarted marked => simp [marked]
  | notStarted unstarted same | notEnded same =>
    rw [same]
    exact inStep.begun
  | ended marked =>
    obtain ⟨-, ran⟩ := ran.of_send
    obtain ⟨outcome, -⟩ := ran.of_finish
    have runs := (laws.sending _ m).mp (laws.running_of_ended outcome)
    -- What runs is not fresh.
    intro _
    by_contra unstarted
    have fresh := (inStep.fresh (by simpa [marked] using unstarted)).2
    rw [inStep.mirrored, fresh] at runs
    cases runs
  | steady exchanges started terminated =>
    rw [started, terminated]
    exact inStep.begun

end Session

/-! ## What runs do -/

/-- Uses of a transport are uses of its image. -/
theorem Transport.Ran.image {f : τ → σ} {upper : Transport τ} {lower : Transport σ}
    (image : Over f upper lower) {m m' : τ} {us : List Use} (ran : upper.Ran m us m') :
    lower.Ran (f m) us (f m') := by
  -- What the lower transport does is what the upper one does, with the image of the memory.
  induction ran with
  | nil m => exact .nil (f m)
  | @start m _ _ _ ih =>
    have use := @Ran.start _ lower (f m)
    rw [image.start m] at use
    exact use ih
  | @send m _ _ wire _ ih =>
    have use := @Ran.send _ lower (f m)
    simp only [image.send] at use
    exact use wire ih
  | @exchange m _ _ wire _ ih =>
    have use := @Ran.exchange _ lower (f m)
    simp only [image.exchange] at use
    exact use wire ih
  | @finish m _ _ _ ih =>
    have use := @Ran.finish _ lower (f m)
    rw [image.finish m] at use
    exact use ih

namespace Session

open Phase (Course)

/-- **The uses of an operation take its transport along.** -/
theorem perform_ran (setup : Setup σ) (op : Operation) (s : Session σ) :
    setup.transport.Ran s.link (uses setup op s) (after setup s op).link := by
  obtain ⟨us, ran, -⟩ := perform_conduct setup.watched op (s.watch [])
  have same : uses setup op s = us := ran.watched
  rw [same, after, perform_watch setup op [] s]
  exact ran.image (Transport.watched_over setup.transport)

theorem history_ran (setup : Setup σ) (ops : List Operation) (s : Session σ) :
    setup.transport.Ran s.link (history setup ops s) (afterAll setup ops s).link := by
  induction ops generalizing s with
  | nil => exact .nil s.link
  | cons op ops ih => exact (perform_ran setup op s).append (ih (after setup s op))

variable {setup : Setup σ} {running : σ → Prop}

/-- **A run is a course of turns**, and a session stays in step with its transport. -/
theorem course_of_run (laws : setup.transport.Lifecycle running) (ops : List Operation)
    {s : Session σ} (inStep : InStep running s.link s.state) :
    Course s.state.phase (history setup ops s) (afterAll setup ops s).state.phase ∧
      InStep running (afterAll setup ops s).link (afterAll setup ops s).state := by
  induction ops generalizing s with
  | nil => exact ⟨.nil _, inStep⟩
  | cons op ops ih =>
    have passage := (perform_uses setup op s).passage
    have ran := perform_ran setup op s
    obtain ⟨course, inStep'⟩ := ih (passage.inStep laws ran inStep)
    exact ⟨(passage.course laws ran inStep).append course, inStep'⟩

/-! ## Starts that succeed -/

/-- What each operation of a run is answered. -/
def answers (setup : Setup σ) : List Operation → Session σ → List (Operation × Answer)
  | [], _ => []
  | op :: ops, s => (op, ((perform setup op).run s).1) :: answers setup ops (after setup s op)

/-- The operation is a start that succeeded. -/
def hasStarted : Operation × Answer → Bool
  | (.start, .ok r) => r.isOk
  | _ => false

/-- A start succeeds in a session that has not started, and marks it. -/
theorem Conduct.of_hasStarted {b : Backend} {relaxed : Bool} {s s' : State} {op : Operation}
    {us : List Use} {answer : Answer} (conduct : Conduct b relaxed s op us answer s')
    (starts : hasStarted (op, answer) = true) : s.started = false ∧ s'.started = true := by
  cases conduct with
  | started check => exact ⟨by simpa [State.checkStart] using check, rfl⟩
  | request is =>
    cases op with
    | start => cases is
    | _ => cases starts
  | @violated op =>
    cases op with
    | _ => cases starts
  | _ => cases starts

/-- A session that has started stays so. -/
theorem Passage.started_mono {s s' : State} {us : List Use} (passage : Passage s s' us)
    (started : s.started = true) : s'.started = true := by
  cases passage with
  | started unstarted marked => rw [marked]
  | notStarted unstarted same => rw [same, started]
  | ended marked => rw [marked, started]
  | notEnded same => rw [same, started]
  | steady exchanges kept => rw [kept, started]

/-- **What marks a session for good happens at most once**: an event that sets a mark, and
is seen in sessions without that mark only. -/
theorem countP_once {setup : Setup σ} {event : Operation × Answer → Bool} (mark : State → Bool)
    (sets : ∀ {op us answer s s'}, Conduct setup.backend setup.relaxed s op us answer s' →
      event (op, answer) = true → mark s = false ∧ mark s' = true)
    (stays : ∀ {op us answer s s'}, Conduct setup.backend setup.relaxed s op us answer s' →
      mark s = true → mark s' = true)
    (ops : List Operation) (s : Session σ) :
    (answers setup ops s).countP event ≤ if mark s.state then 0 else 1 := by
  induction ops generalizing s with
  | nil => exact Nat.zero_le _
  | cons op ops ih =>
    have conduct := perform_uses setup op s
    have later := ih (after setup s op)
    rw [answers, List.countP_cons]
    by_cases happens : event (op, ((perform setup op).run s).1) = true
    · obtain ⟨unmarked, marked⟩ := sets conduct happens
      have marked : mark (after setup s op).state = true := marked
      rw [if_pos marked] at later
      rw [if_pos happens, if_neg (by simp [unmarked])]
      omega
    · rw [if_neg happens]
      refine later.trans ?_
      cases was : mark s.state with
      | false => split <;> decide
      | true =>
        have still : mark (after setup s op).state = true := stays conduct was
        rw [if_pos still]
        exact Nat.zero_le _

/-- A start succeeds at most once, and never in a session that has started. -/
theorem countP_hasStarted (setup : Setup σ) (ops : List Operation) (s : Session σ) :
    (answers setup ops s).countP hasStarted ≤ if s.state.started then 0 else 1 :=
  countP_once State.started Conduct.of_hasStarted (fun conduct => conduct.passage.started_mono)
    ops s

/-! ## The end of a session -/

/-- What it is for an exit to be reported as it went, when its last wire was handed over
with the one outcome and its conversation ended with the other: the session is over when
that end returned, whether or not the wire was sent, and the exit is a success when both
went well and the engine left no error behind. -/
structure ExitReported (setup : Setup σ) (s : Session σ) (sent : Except Fault Unit)
    (ended : Except Fault String) : Prop where
  state : (after setup s .exit).state =
    if ended.isOk then { s.state with terminated := true } else s.state
  answer : ∃ r, ((perform setup .exit).run s).1 = .ok r ∧
    (r.isOk = true ↔ sent = .ok () ∧ ∃ trailing, ended = .ok trailing ∧
      setup.backend.reportsError trailing = false)

/-- An exit sends its wire and ends the conversation, whatever comes of the wire. -/
theorem Conduct.of_exit {b : Backend} {relaxed : Bool} {s s' : State} {us : List Use}
    {answer : Answer} (conduct : Conduct b relaxed s .exit us answer s') :
    ∃ sent ended, us = [.send Backend.exitWire sent, .finish ended] ∧
      (s' = if ended.isOk then { s with terminated := true } else s) ∧
      ∃ r, answer = .ok r ∧ (r.isOk = true ↔ sent = .ok () ∧ ∃ trailing, ended = .ok trailing ∧
        b.reportsError trailing = false) := by
  cases conduct with
  | violated check => cases check
  | request is => cases is
  | notEnded | endedUnsent =>
    exact ⟨_, _, rfl, rfl, _, rfl, by simp [Failure.response, Response.isOk, Response.error]⟩
  | endedWithError error =>
    exact ⟨_, _, rfl, rfl, _, rfl, by simp [error, Response.isOk, Response.error]⟩
  | ended clean =>
    exact ⟨_, _, rfl, rfl, _, rfl, by simp [clean, Response.isOk, Response.successExit]⟩

/-- **An exit is reported as it went.** -/
theorem exit_reported (setup : Setup σ) (s : Session σ) :
    let sent := setup.transport.send Backend.exitWire s.link
    ExitReported setup s sent.outcome (setup.transport.finish sent.next).outcome := by
  have ran := perform_ran setup .exit s
  obtain ⟨sent, ended, uses, state, answer⟩ := (perform_uses setup .exit s).of_exit
  rw [uses] at ran
  obtain ⟨rfl, rest⟩ := ran.of_send
  obtain ⟨rfl, -⟩ := rest.of_finish
  exact ⟨state, answer⟩

/-! ## All reachable states -/

/-- What it is for the life of a session to mirror that of its transport, after some
operations on a session made over the transport. -/
structure LifeMirrored (setup : Setup σ) (running : σ → Prop) (made : Session σ)
    (ops : List Operation) : Prop where
  /-- The transport runs exactly while the session is started and not over. -/
  running_iff : running (afterAll setup ops made).link ↔
    (afterAll setup ops made).state.started = true ∧
      (afterAll setup ops made).state.terminated = false
  startsOnce : (answers setup ops made).countP hasStarted ≤ 1
  overForGood : (afterAll setup ops made).state.terminated = true →
    ∀ more, (afterAll setup (ops ++ more) made).state.terminated = true
  exitReported :
    let here := afterAll setup ops made
    let sent := setup.transport.send Backend.exitWire here.link
    ExitReported setup here sent.outcome (setup.transport.finish sent.next).outcome
  /-- At each single use, the transport runs exactly when it was started and not ended. -/
  runsBetween : ∀ before u later, history setup ops made = before ++ u :: later →
    ∃ m, setup.transport.Ran made.link before m ∧
      (running m ↔ .start (.ok ()) ∈ before ∧ ∀ text, .finish (.ok text) ∉ before)
  /-- No wire is delivered before that start, and none behind that end. -/
  deliversBetween : ∀ before u later, history setup ops made = before ++ u :: later →
    ∀ wire, u.delivered? = some wire →
      .start (.ok ()) ∈ before ∧ ∀ text, .finish (.ok text) ∉ before

theorem afterAll_append (setup : Setup σ) (ops more : List Operation) (s : Session σ) :
    afterAll setup (ops ++ more) s = afterAll setup more (afterAll setup ops s) :=
  List.foldl_append

/-- **The life of a session mirrors that of its transport**, over every transport that
keeps the laws and is stopped at first, and after any operations. -/
theorem lifecycle_mirrored {b : Backend} {transport : Transport σ} {link : σ} {bundle : Bundle}
    {setup : Setup σ} {s : Session σ} {running : σ → Prop} (laws : transport.Lifecycle running)
    (stopped : ¬ running link)
    (made : Session.create b transport link bundle = .ok (setup, s)) (ops : List Operation) :
    LifeMirrored setup running s ops := by
  obtain ⟨rfl, table, rfl⟩ := new_of_create made
  have inStep : InStep running link { options := table : State } :=
    ⟨iff_of_false stopped nofun, nofun⟩
  generalize setup_is : Setup.mk b transport bundle.relax.truthy bundle.verbose.truthy = setup
  have laws : setup.transport.Lifecycle running := setup_is ▸ laws
  obtain ⟨course, inStep'⟩ := course_of_run laws ops (s := ⟨_, link, []⟩) inStep
  have ran := history_ran setup ops ⟨{ options := table }, link, []⟩
  refine ⟨?running_iff, ?startsOnce, ?overForGood, ?exitReported, ?runsBetween, ?deliversBetween⟩
  case running_iff => exact inStep'.mirrored.trans (State.phase_eq_live _)
  case startsOnce => exact countP_hasStarted setup ops ⟨{ options := table }, link, []⟩
  case overForGood =>
    intro closed more
    rw [← State.phase_eq_closed] at closed ⊢
    rw [afterAll_append]
    exact (course_of_run laws more inStep').1.closed_iff.mpr (.inl closed)
  case exitReported => exact exit_reported setup _
  case runsBetween =>
    intro before u later whole
    rw [whole] at course ran
    obtain ⟨q, first, -⟩ := course.of_append
    obtain ⟨m, ran, -⟩ := ran.of_append
    exact ⟨m, ran, (first.running_iff laws ran inStep.mirrored).trans first.live_iff⟩
  case deliversBetween =>
    intro before u later whole wire delivered
    rw [whole] at course
    obtain ⟨q, first, next⟩ := course.of_append
    cases next with
    | cons turn _ => exact first.live_iff.mp (turn.live_of_delivered delivered)

/-- A session that is ended before it starts, started, and ended by an exit whose wire could
not be sent. -/
theorem lifecycle_mirrored_unsent_exit :
    let part : Transport.Part :=
      { name := "yices", prompt := "yices > ", sendTrap := some ⟨"(exit)", "broken pipe"⟩ }
    let ops : List Operation := [.exit, .start, .checkSat, .start, .exit, .checkSat]
    ∃ setup s, Session.create Backend.yices (.scripted part) {} {} = .ok (setup, s) ∧
      LifeMirrored setup (fun m => m.running = true) s ops ∧
      (afterAll setup ops s).state.terminated = true := by
  intro part ops
  refine ⟨_, _, rfl, ?_, by decide +kernel⟩
  have laws : (Transport.scripted part).Lifecycle fun m => m.running = true :=
    Transport.scripted_lifecycle part rfl
  have stopped : ¬ ({} : Transport.Played).running = true := by decide
  exact @lifecycle_mirrored _ Backend.yices _ _ {} _ _ _ laws stopped rfl ops

end Session

/-- A line that is up or down, to an engine that answers with its prompt. -/
structure Transport.Line where
  /-- Whether it can be taken down while it is down. -/
  endsDown : Bool := false
  /-- Whether it breaks with a wire that is to be answered. -/
  breaks : Bool := false

/-- The transport that is a line. -/
def Transport.line (l : Line) : Transport Bool where
  start _ := { outcome := .ok (), next := true }
  send _ up := { outcome := if up then .ok () else .error { message := "down" }, next := up }
  exchange _ up :=
    let holds := up && !l.breaks
    { outcome := if holds then .ok "yices > " else .error { message := "down" }, next := holds }
  finish up :=
    { outcome := if up || l.endsDown then .ok "" else .error { message := "down" }, next := false }

theorem Transport.line_switched (l : Line) : (line l).Switched fun up => up = true where
  started _ _ := rfl
  notStarted _ error := by cases error
  ended _ := nofun
  notEnded {up f} error := by
    cases up with
    | false => exact Iff.rfl
    | true => cases error
  sent {wire up} ok := by
    cases up with
    | false => cases ok
    | true => rfl
  exchanged {wire up reply} ok := by
    cases up with
    | false => cases ok
    | true => rfl

namespace Session

/-- **Starts and ends that switch a transport are not enough.** Where an end returns while the
transport is stopped, a session can be over before it starts; where a wire can stop the
transport, a session outlives it. -/
theorem lifecycle_unmirrored :
    (let transport := Transport.line { endsDown := true }
      ∃ setup s, Session.create Backend.yices transport false {} = .ok (setup, s) ∧
        transport.Switched (fun up => up = true) ∧
        (∀ wire up, (transport.send wire up).next = up) ∧
        (∀ wire up, (transport.exchange wire up).next = up) ∧
        ¬ LifeMirrored setup (fun up => up = true) s [.exit, .start]) ∧
    (let transport := Transport.line { breaks := true }
      ∃ setup s, Session.create Backend.yices transport false {} = .ok (setup, s) ∧
        transport.Switched (fun up => up = true) ∧
        (∀ up text, (transport.finish up).outcome = .ok text → up = true) ∧
        ¬ LifeMirrored setup (fun up => up = true) s [.start, .checkSat]) := by
  constructor
  · refine ⟨_, _, rfl, Transport.line_switched _, fun _ _ => rfl, fun _ => Bool.and_true, ?_⟩
    intro mirrored
    -- The line is up, and the session is over.
    exact absurd (mirrored.running_iff.mp (by decide +kernel)) (by decide +kernel)
  · refine ⟨_, _, rfl, Transport.line_switched _, fun up text ended => ?needs, ?outlived⟩
    case needs =>
      cases up with
      | false => cases ended
      | true => rfl
    case outlived =>
      intro mirrored
      -- The session goes on, and the line is down.
      exact absurd (mirrored.running_iff.mpr (by decide +kernel)) (by decide +kernel)

end Session

end SmtSession
