import SmtSession.Proofs.Session.Operation

/-!
# What a session does with its transport

**A use** is one call of a transport, with what came of it. The watched
transport does what the transport under it does, and remembers its uses as
well. So a statement about the wires of a session is a statement about the
session over the watched transport.

`perform_image` is why that is enough: an operation cannot look at the memory
of its transport, so watching changes neither its answer nor the session. It
is stated for any two transports of which one is the image of the other. Nor
can it look at the records: what was reported before it makes no difference.

The same holds of the information that was set, as long as an operation is none
that sets or asks for information: `perform_mapInfo`.
-/

namespace SmtSession

/-! ## Other information in a state -/

namespace State

/-- The state with what a function makes of its information. -/
def mapInfo (g : Table → Table) (s : State) : State :=
  { s with info := g s.info }

variable (g : Table → Table) (s : State)

@[simp] theorem mapInfo_checkStart : (s.mapInfo g).checkStart = s.checkStart := rfl

@[simp] theorem mapInfo_checkSetLogic (name : String) (relaxed : Bool) :
    (s.mapInfo g).checkSetLogic name relaxed = s.checkSetLogic name relaxed := rfl

@[simp] theorem mapInfo_checkPop (count : Int) :
    (s.mapInfo g).checkPop count = s.checkPop count := rfl

@[simp] theorem mapInfo_options : (s.mapInfo g).options = s.options := rfl

@[simp] theorem mapInfo_checkSetOption (key text : String) :
    (s.mapInfo g).checkSetOption key text = s.checkSetOption key text := rfl

@[simp] theorem mapInfo_setOption (key text : String) :
    (s.mapInfo g).setOption key text = (s.setOption key text).map (mapInfo g) := by
  unfold setOption
  rw [mapInfo_checkSetOption]
  cases s.checkSetOption key text with
  | some v => rfl
  | none => rfl

theorem mapInfo_moveScopes (delta : Int) :
    (s.mapInfo g).moveScopes delta = (s.moveScopes delta).mapInfo g := by
  simp only [moveScopes_eq, mapInfo]

end State

namespace Transport

/-! ## Uses -/

/-- One use of a transport, with what came of it. -/
inductive Use
  | start (outcome : Except Fault Unit)
  | send (wire : String) (outcome : Except Fault Unit)
  | exchange (wire : String) (outcome : Except Fault String)
  | finish (outcome : Except Fault String)

/-- The effect with one more use remembered. -/
def watch (use : Except Fault α → Use) (past : List Use) (e : Effect σ α) :
    Effect (σ × List Use) α :=
  { outcome := e.outcome, next := (e.next, past ++ [use e.outcome]), log := e.log }

/-- The transport that also remembers how it was used, the latest use last. -/
def watched (t : Transport σ) : Transport (σ × List Use) where
  start m := watch .start m.2 (t.start m.1)
  send wire m := watch (.send wire) m.2 (t.send wire m.1)
  exchange wire m := watch (.exchange wire) m.2 (t.exchange wire m.1)
  finish m := watch .finish m.2 (t.finish m.1)

/-! ## Images of transports -/

/-- The same effect, with an image of the memory. -/
def Effect.map (f : τ → σ) (e : Effect τ α) : Effect σ α :=
  { outcome := e.outcome, next := f e.next, log := e.log }

/-- The lower transport is the image of the upper one: every use gives the same
and commutes with `f` on the memory. -/
structure Over (f : τ → σ) (upper : Transport τ) (lower : Transport σ) : Prop where
  start : ∀ m, lower.start (f m) = (upper.start m).map f
  send : ∀ wire m, lower.send wire (f m) = (upper.send wire m).map f
  exchange : ∀ wire m, lower.exchange wire (f m) = (upper.exchange wire m).map f
  finish : ∀ m, lower.finish (f m) = (upper.finish m).map f

/-- Every transport is its own image. -/
theorem self_over (t : Transport σ) : Over id t t where
  start _ := rfl
  send _ _ := rfl
  exchange _ _ := rfl
  finish _ := rfl

/-- Forgetting the uses of a watched transport gives the transport back. -/
theorem watched_over (t : Transport σ) : Over Prod.fst t.watched t where
  start _ := rfl
  send _ _ := rfl
  exchange _ _ := rfl
  finish _ := rfl

/-- A watched transport does not look at the uses that it remembers. -/
theorem watched_over_past (t : Transport σ) (past : List Use) :
    Over (fun m => (m.1, past ++ m.2)) t.watched t.watched where
  start _ := by simp only [watched, watch, Effect.map, List.append_assoc]
  send _ _ := by simp only [watched, watch, Effect.map, List.append_assoc]
  exchange _ _ := by simp only [watched, watch, Effect.map, List.append_assoc]
  finish _ := by simp only [watched, watch, Effect.map, List.append_assoc]

end Transport

namespace Session

open Transport (Use Over)

/-- The same session over another transport. -/
def Setup.withTransport (setup : Setup σ) (t : Transport τ) : Setup τ where
  backend := setup.backend
  transport := t
  relaxed := setup.relaxed
  verbose := setup.verbose

/-- The same session over the watched transport. -/
def Setup.watched (setup : Setup σ) : Setup (σ × List Use) :=
  setup.withTransport setup.transport.watched

/-- The session with an image of the transport's memory. -/
def mapLink (f : τ → σ) (s : Session τ) : Session σ where
  state := s.state
  link := f s.link
  log := s.log

/-- The session with an image of the memory, and with earlier records. -/
def image (f : τ → σ) (earlier : List Log.Record) (s : Session τ) : Session σ where
  state := s.state
  link := f s.link
  log := earlier ++ s.log

/-- The session with what a function makes of its information. -/
def mapInfo (g : Table → Table) (s : Session σ) : Session σ :=
  { s with state := s.state.mapInfo g }

@[simp] theorem mapInfo_state (g : Table → Table) (s : Session σ) :
    (s.mapInfo g).state = s.state.mapInfo g := rfl

@[simp] theorem image_state (f : τ → σ) (earlier : List Log.Record) (s : Session τ) :
    (s.image f earlier).state = s.state := rfl

@[simp] theorem withTransport_relaxed (setup : Setup σ) (t : Transport τ) :
    (setup.withTransport t).relaxed = setup.relaxed := rfl

/-- The session over the watched transport, with the uses up to now. -/
def watch (past : List Use) (s : Session σ) : Session (σ × List Use) :=
  s.mapLink fun m => (m, past)

/-! ## Acts that cannot look at the memory, at the records, nor at the information -/

/-- The lower act is the image of the upper one. -/
def Lifts (f : τ → σ) (g : Table → Table) (earlier : List Log.Record) (upper : Act τ α)
    (lower : Act σ α) : Prop :=
  ∀ s, lower.run ((s.image f earlier).mapInfo g) =
    ((upper.run s).1, ((upper.run s).2.image f earlier).mapInfo g)

/-- The operation has to do with the information of a session. -/
def Operation.isInfo : Operation → Bool
  | .setInfo _ _ | .getInfo _ => true
  | _ => false

theorem accept_mapInfo {b : Backend} {op : Operation} {r : Request} {g : Table → Table}
    (is : op.request? b = some r) (reply : String) (s : State) :
    r.accept reply (s.mapInfo g) = (r.accept reply s).mapInfo g := by
  cases op <;> cases is <;> rfl

namespace Lifts

variable {f : τ → σ} {g : Table → Table} {earlier : List Log.Record}

theorem of_pure (a : α) : Lifts f g earlier (pure a) (pure a) := fun _ => rfl

theorem bind {upper : Act τ α} {lower : Act σ α} {upper' : α → Act τ β} {lower' : α → Act σ β}
    (first : Lifts f g earlier upper lower) (next : ∀ a, Lifts f g earlier (upper' a) (lower' a)) :
    Lifts f g earlier (upper >>= upper') (lower >>= lower') := by
  intro s
  rw [StateT.run_bind, first s]
  exact next (upper.run s).1 (upper.run s).2

theorem map {upper : Act τ α} {lower : Act σ α} (h : α → β)
    (first : Lifts f g earlier upper lower) :
    Lifts f g earlier (h <$> upper) (h <$> lower) := by
  intro s
  rw [StateT.run_map, first s]
  rfl

/-- Looking at the session is harmless when only the image is looked at. -/
theorem get_bind {upper : Session τ → Act τ β} {lower : Session σ → Act σ β}
    (next : ∀ s, Lifts f g earlier (upper s) (lower ((s.image f earlier).mapInfo g))) :
    Lifts f g earlier (get >>= upper) (get >>= lower) := by
  intro s
  exact next s s

end Lifts

section

variable {f : τ → σ} {g : Table → Table} {earlier : List Log.Record} {t : Transport τ}
  (setup : Setup σ)

theorem lifts_record (level : Log.Level) (message : String) :
    Lifts f g earlier (record level message) (record level message) := by
  intro s
  show ((), Session.mk (s.state.mapInfo g) (f s.link) (earlier ++ s.log ++ [_])) = _
  rw [List.append_assoc]
  rfl

theorem lifts_use {upper : τ → Transport.Effect τ α} {lower : σ → Transport.Effect σ α}
    (same : ∀ m, lower (f m) = (upper m).map f) : Lifts f g earlier (use upper) (use lower) := by
  intro s
  show ((lower (f s.link)).outcome, Session.mk (s.state.mapInfo g) (lower (f s.link)).next
    (earlier ++ s.log ++ (lower (f s.link)).log)) = _
  rw [same s.link, List.append_assoc]
  rfl

/-- A change of the state that has nothing to do with the information. -/
theorem lifts_modify (change : State → State)
    (same : ∀ s, change (s.mapInfo g) = (change s).mapInfo g) :
    Lifts f g earlier (modify fun s => { s with state := change s.state })
      (modify fun s => { s with state := change s.state }) := by
  intro s
  show ((), Session.mk (change (s.state.mapInfo g)) (f s.link) (earlier ++ s.log)) = _
  rw [same]
  rfl

variable (image : Over f t setup.transport)

include image

theorem lifts_transact (wire : String) :
    Lifts f g earlier (transact (setup.withTransport t) wire) (transact setup wire) := by
  apply Lifts.bind (lifts_use (image.exchange wire))
  intro outcome
  cases outcome with
  | error fault => exact .of_pure _
  | ok reply => exact .of_pure _

omit image in
theorem lifts_fail (command : String) (failure : Failure) (pos : Option Pos) :
    Lifts f g earlier (fail (setup.withTransport t) command failure pos)
      (fail setup command failure pos) := by
  cases failure with
  | engine reply => exact .of_pure _
  | refused cause at? => exact .of_pure _
  | fault fault => exact (lifts_record _ _).bind fun _ => .of_pure _

theorem lifts_carryOut {r : Request}
    (accepts : ∀ reply s, r.accept reply (s.mapInfo g) = (r.accept reply s).mapInfo g) :
    Lifts f g earlier (carryOut (setup.withTransport t) r) (carryOut setup r) := by
  unfold carryOut
  split
  · exact .of_pure _
  · exact (lifts_fail setup _ _ _).bind fun _ => .of_pure _
  · exact .of_pure _
  · refine (lifts_transact setup image _).bind ?_
    intro outcome
    cases outcome with
    | error failure => exact (lifts_fail setup _ _ _).bind fun _ => .of_pure _
    | ok reply => exact (lifts_modify (r.accept reply) (accepts reply)).bind fun _ => .of_pure _

theorem lifts_repeatWire (wire : String) (n : Nat) :
    Lifts f g earlier (repeatWire (setup.withTransport t) wire n) (repeatWire setup wire n) := by
  induction n with
  | zero => exact .of_pure _
  | succ n ih =>
    refine (lifts_transact setup image wire).bind ?_
    intro outcome
    cases outcome with
    | error failure => exact .of_pure _
    | ok reply => exact ih.bind fun _ => .of_pure _

theorem lifts_moveScopes (command wire : String) (sign count : Int) :
    Lifts f g earlier (moveScopes (setup.withTransport t) command wire sign count)
      (moveScopes setup command wire sign count) := by
  refine (lifts_repeatWire setup image wire count.toNat).bind ?_
  rintro ⟨acknowledged, failure⟩
  refine (lifts_modify (State.moveScopes · (sign * acknowledged)) fun s =>
    State.mapInfo_moveScopes g s _).bind fun _ => ?_
  cases failure with
  | none => exact .of_pure _
  | some failure =>
    refine (lifts_fail setup command failure none).bind ?_
    intro response
    split
    · exact .of_pure _
    · exact Lifts.get_bind fun s => (lifts_record _ _).bind fun _ => .of_pure _

theorem lifts_start : Lifts f g earlier (start (setup.withTransport t)) (start setup) := by
  refine Lifts.get_bind ?_
  intro s
  simp only [mapInfo_state, image_state, State.mapInfo_checkStart]
  cases s.state.checkStart with
  | some v => exact .of_pure _
  | none =>
    refine (lifts_use image.start).bind ?_
    intro outcome
    cases outcome with
    | error fault => exact (lifts_record _ _).bind fun _ => .of_pure _
    | ok done =>
      exact (lifts_modify (fun s => { s with started := true }) fun _ => rfl).bind fun _ =>
        (lifts_record _ _).bind fun _ => .of_pure _

theorem lifts_exit : Lifts f g earlier (exit (setup.withTransport t)) (exit setup) := by
  refine (lifts_use (image.send Backend.exitWire)).bind ?_
  intro sent
  refine (lifts_use image.finish).bind ?_
  intro outcome
  cases outcome with
  | error fault => exact lifts_fail setup _ _ _
  | ok trailing =>
    refine (lifts_modify (fun s => { s with terminated := true }) fun _ => rfl).bind fun _ =>
      (lifts_record _ _).bind fun _ => ?_
    cases sent with
    | error fault => exact lifts_fail setup _ _ _
    | ok done =>
      show Lifts f g earlier (if setup.backend.reportsError trailing then _ else _)
        (if _ then _ else _)
      split
      · exact .of_pure _
      · exact .of_pure _

theorem lifts_push (count : Int) :
    Lifts f g earlier (push (setup.withTransport t) count) (push setup count) := by
  unfold push
  split
  · exact .of_pure _
  · exact lifts_moveScopes setup image _ _ _ _

theorem lifts_pop (count : Int) :
    Lifts f g earlier (pop (setup.withTransport t) count) (pop setup count) := by
  refine Lifts.get_bind ?_
  intro s
  simp only [mapInfo_state, image_state, State.mapInfo_checkPop]
  cases s.state.checkPop count with
  | some v => exact .of_pure _
  | none => exact lifts_moveScopes setup image _ _ _ _

theorem lifts_setLogic (logic : Symbol) :
    Lifts f g earlier (setLogic (setup.withTransport t) logic) (setLogic setup logic) := by
  refine Lifts.get_bind ?_
  intro s
  simp only [mapInfo_state, image_state, withTransport_relaxed, State.mapInfo_checkSetLogic]
  cases s.state.checkSetLogic logic.name setup.relaxed with
  | some v => exact .of_pure _
  | none =>
    show Lifts f g earlier (if s.state.logicFixed then _ else _)
      (if s.state.logicFixed then _ else _)
    split
    · exact lifts_carryOut setup image fun _ _ => rfl
    · exact (lifts_modify (State.withLogic · logic.name) fun _ => rfl).bind fun _ => .of_pure _

omit image in
theorem lifts_setOption (key : Keyword) (value : Setting) :
    Lifts f g earlier (setOption key value) (setOption key value) := by
  unfold setOption
  split
  · exact .of_pure _
  · exact .of_pure _
  · rename_i text _
    refine Lifts.get_bind ?_
    intro s
    simp only [mapInfo_state, image_state, State.mapInfo_setOption]
    cases s.state.setOption key.name text with
    | error v => exact .of_pure _
    | ok state => exact Lifts.bind (fun _ => rfl) fun _ => .of_pure _

omit image in
theorem lifts_getOption (key : String) : Lifts f g earlier (getOption key) (getOption key) := by
  refine Lifts.get_bind ?_
  intro s
  simp only [mapInfo_state, image_state, State.mapInfo_options]
  cases s.state.options.get? key with
  | some text => exact .of_pure _
  | none => exact .of_pure _

omit image in
theorem lifts_setInfo (commutes : ∀ key text info, g (info.set key text) = (g info).set key text)
    (key : Keyword) (value : Setting) :
    Lifts f g earlier (setInfo key value) (setInfo key value) := by
  unfold setInfo
  split
  · exact .of_pure _
  · split
    · exact .of_pure _
    · exact .of_pure _
    · refine (lifts_modify (State.setInfo · key.name _) fun s => ?_).bind fun _ => .of_pure _
      simp only [State.mapInfo, State.setInfo, commutes]

omit image in
theorem lifts_getInfo (key : String) :
    Lifts f id earlier (getInfo (setup.withTransport t) key) (getInfo setup key) :=
  Lifts.get_bind fun _ => .of_pure _

/-- What sets information or asks for some needs the same information in both. -/
theorem lifts_perform (op : Operation) (told : op.isInfo = true → g = id) :
    Lifts f g earlier (perform (setup.withTransport t) op) (perform setup op) := by
  cases h : op.request? setup.backend with
  | some r =>
    rw [perform_of_request setup h, perform_of_request (setup.withTransport t) h]
    exact lifts_carryOut setup image (accept_mapInfo h)
  | none =>
    cases op with
    | start => exact (lifts_start setup image).map _
    | exit => exact (lifts_exit setup image).map _
    | push count => exact (lifts_push setup image count).map _
    | pop count => exact (lifts_pop setup image count).map _
    | setLogic logic => exact lifts_setLogic setup image logic
    | setOption key value => exact lifts_setOption key value
    | getOption key => exact (lifts_getOption key).map _
    | setInfo key value =>
      cases told rfl
      exact lifts_setInfo (fun _ _ _ => rfl) key value
    | getInfo key =>
      cases told rfl
      exact (lifts_getInfo setup key).map _
    | _ => cases h

end

/-- **An operation cannot look at the memory of its transport, nor at the records**: over a
transport and over its image, and behind any records, it gives the same answer, the same
state and the same further records. -/
theorem perform_image {f : τ → σ} {t : Transport τ} (setup : Setup σ)
    (image : Over f t setup.transport) (earlier : List Log.Record) (op : Operation)
    (s : Session τ) :
    (perform setup op).run (s.image f earlier) =
      (((perform (setup.withTransport t) op).run s).1,
        ((perform (setup.withTransport t) op).run s).2.image f earlier) :=
  lifts_perform setup image op (fun _ => rfl) s

/-- **An operation cannot look at the information**, unless it sets or asks for some. -/
theorem perform_mapInfo (setup : Setup σ) (g : Table → Table) {op : Operation}
    (other : op.isInfo = false) (s : Session σ) :
    (perform setup op).run (s.mapInfo g) =
      (((perform setup op).run s).1, ((perform setup op).run s).2.mapInfo g) := by
  have lifts : Lifts id g [] (perform setup op) (perform setup op) :=
    lifts_perform setup (Transport.self_over setup.transport) op fun is => by
      rw [other] at is
      cases is
  exact lifts s

/-! ## The uses of one operation -/

/-- What an operation does with the transport, in order. -/
def uses (setup : Setup σ) (op : Operation) (s : Session σ) : List Use :=
  ((perform setup.watched op).run (s.watch [])).2.link.2

/-- Watching an operation changes neither its answer nor the session. -/
theorem perform_watch (setup : Setup σ) (op : Operation) (past : List Use) (s : Session σ) :
    (perform setup op).run s =
      (((perform setup.watched op).run (s.watch past)).1,
        ((perform setup.watched op).run (s.watch past)).2.mapLink Prod.fst) :=
  perform_image setup (Transport.watched_over setup.transport) [] op (s.watch past)

end Session

end SmtSession
