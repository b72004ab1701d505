import SmtSession.Conversation

/-!
# What each use of a conversation does

A use starts the engine, sends, listens or ends the conversation. Its effect is told by the
engine's own answer, up to the files and the log: `start_effect`, `send_effect`,
`listen_effect` and `exit_effect` say all that the uses do to the engine and to the bytes
pending. Where no engine runs, all but the start are faults that change nothing.
-/

namespace SmtSession

/-- What a call that listens answers: the reply, or the fault with what there was. -/
def Launch.answer (l : Launch) : Option Channel.Heard → Except Fault String
  | some (.reply bytes) => .ok (Text.Utf8.decode bytes)
  | some (.timedOut soFar) =>
    let limit := (l.patience.map Patience.shown).getD ""
    .error (l.fault ("did not answer within " ++ limit ++ " seconds") (Text.Utf8.decode soFar))
  | some (.ended left) => .error (l.fault "terminated unexpectedly" (Text.Utf8.decode left))
  | none => .error (l.fault "stays silent")

namespace Conversation

variable {ε α β : Type} {engine : Engine ε} {l : Launch} {c : Conversation ε} {e : ε}

/-! ## Steps of a use -/

/-- What begins with a step that succeeds goes on behind it. -/
theorem bind_run {u : Use ε α} {f : α → Use ε β} {s s' : Conversation ε × List Log.Record} {a : α}
    (first : u.run s = (.ok a, s')) : (u >>= f).run s = (f a).run s' := by
  change ExceptT.bindCont f (u.run s).1 (u.run s).2 = _
  rw [first]
  rfl

/-- What begins with a step that fails goes no further. -/
theorem bind_run_of_error {u : Use ε α} {f : α → Use ε β}
    {s s' : Conversation ε × List Log.Record} {fault : Fault}
    (first : u.run s = (.error fault, s')) : (u >>= f).run s = (.error fault, s') := by
  change ExceptT.bindCont f (u.run s).1 (u.run s).2 = _
  rw [first]
  rfl

/-- What is tried stands when it succeeds. -/
theorem try_run {u : Use ε α} {s s' : Conversation ε × List Log.Record} {a : α}
    (fine : u.run s = (.ok a, s')) (f : Fault → Use ε α) :
    (tryCatch u f).run s = (.ok a, s') := by
  simp only [tryCatch, tryCatchThe, MonadExceptOf.tryCatch, ExceptT.tryCatch, ExceptT.run,
    ExceptT.mk, bind, StateT.bind] at fine ⊢
  rw [fine]
  rfl

/-- What fails is followed by what catches its fault. -/
theorem try_run_of_error {u : Use ε α} {s s' : Conversation ε × List Log.Record} {fault : Fault}
    (fails : u.run s = (.error fault, s')) (f : Fault → Use ε α) :
    (tryCatch u f).run s = (f fault).run s' := by
  simp only [tryCatch, tryCatchThe, MonadExceptOf.tryCatch, ExceptT.tryCatch, ExceptT.run,
    ExceptT.mk, bind, StateT.bind] at fails ⊢
  rw [fails]

/-- A result that is not looked at is none. -/
theorem discard_run (u : Use ε α) (s : Conversation ε × List Log.Record) :
    (discard u : Use ε Unit).run s = ((u.run s).1.map fun _ => (), (u.run s).2) := by
  unfold discard
  rw [map_const]
  exact congrFun (ExceptT.run_map (fun _ => ()) u) s

theorem current_run (log : List Log.Record) :
    (current : Use ε (Conversation ε)).run (c, log) = (.ok c, c, log) :=
  rfl

theorem change_run (f : Conversation ε → Conversation ε) (log : List Log.Record) :
    (change f).run (c, log) = (.ok (), f c, log) :=
  rfl

theorem record_run (level : Log.Level) (message : String) (log : List Log.Record) :
    (record level message : Use ε Unit).run (c, log) = (.ok (), c, log ++ [⟨level, message⟩]) :=
  rfl

theorem runningEngine_run (running : c.engine = some e) (log : List Log.Record) :
    (runningEngine l : Use ε ε).run (c, log) = (.ok e, c, log) := by
  cases c with
  | mk files engine pending transcript =>
    cases running
    rfl

/-- The files when a text was added to the transcript. -/
def transcribed (c : Conversation ε) (text : String) : Files :=
  match c.transcript with
  | some place => c.files.append place text
  | none => c.files

/-- The transcript is a file: nothing else changes with it. -/
theorem transcribe_run (text : String) (log : List Log.Record) :
    (transcribe text).run (c, log) = (.ok (), { c with files := c.transcribed text }, log) := by
  unfold transcribe
  rw [change_run]
  cases c with
  | mk files engine pending transcript =>
    cases transcript with
    | none => rfl
    | some place => rfl

theorem runningEngine_run_of_none (stopped : c.engine = none) (log : List Log.Record) :
    (runningEngine l : Use ε ε).run (c, log) = (.error (l.fault "is not running"), c, log) := by
  cases c with
  | mk files engine pending transcript =>
    cases stopped
    rfl

theorem effect_of_run {u : Use ε α} {outcome : Except Fault α} {c' : Conversation ε}
    {log : List Log.Record} (run : u.run (c, []) = (outcome, c', log)) :
    u.effect c = { outcome := outcome, next := c', log := log } := by
  unfold Use.effect
  rw [run]

/-! ## Uses -/

/-- What begins with the engine is a fault where none runs, and changes nothing. -/
theorem effect_of_stopped (stopped : c.engine = none) (f : ε → Use ε α) :
    (runningEngine l >>= f).effect c =
      { outcome := .error (l.fault "is not running"), next := c, log := [] } :=
  effect_of_run (bind_run_of_error (runningEngine_run_of_none stopped []))

variable (engine l)

theorem send_run (running : c.engine = some e) (text : String) (log : List Log.Record) :
    (send engine l text).run (c, log) =
      (if (engine.feed (Text.Utf8.encode text) e).isSome then .ok ()
        else .error { message := "Failed to write to " ++ l.name ++ ": [Errno 32] Broken pipe" },
        { c with
          files := c.transcribed text
          engine := some ((engine.feed (Text.Utf8.encode text) e).getD e) },
        log ++ [⟨.debug, "Sending: " ++ Text.stripRight text⟩]) := by
  unfold send
  rw [bind_run (runningEngine_run running log), bind_run (record_run _ _ log),
    bind_run (transcribe_run text _)]
  cases engine.feed (Text.Utf8.encode text) e with
  | none =>
    rw [Option.getD_none, ← running]
    rfl
  | some e' => rfl

/-- **Sending hands the text to the engine.** -/
theorem send_effect (running : c.engine = some e) (text : String) :
    (send engine l text).effect c =
      { outcome := if (engine.feed (Text.Utf8.encode text) e).isSome then .ok ()
          else .error { message := "Failed to write to " ++ l.name ++ ": [Errno 32] Broken pipe" }
        next := { c with
          files := c.transcribed text
          engine := some ((engine.feed (Text.Utf8.encode text) e).getD e) }
        log := [⟨.debug, "Sending: " ++ Text.stripRight text⟩] } :=
  effect_of_run (send_run engine l running text [])

theorem listen_run (running : c.engine = some e) (log : List Log.Record) :
    ∃ files log', (listen engine l).run (c, log) =
      match hear engine (Text.Utf8.encode l.prompt) (l.deadline (engine.clock e)) c.pending e with
      | some (heard, pending, e') =>
        (l.answer (some heard),
          { c with files := files, engine := some e', pending := pending }, log')
      | none => (l.answer none, c, log') := by
  unfold listen
  rw [bind_run (runningEngine_run running log), bind_run (current_run log)]
  cases hears : hear engine (Text.Utf8.encode l.prompt) (l.deadline (engine.clock e))
      c.pending e with
  | none => exact ⟨c.files, log, rfl⟩
  | some found =>
    obtain ⟨heard, pending, e'⟩ := found
    dsimp only
    rw [bind_run (change_run _ log)]
    cases heard with
    | reply bytes =>
      rw [bind_run (record_run _ _ log), bind_run (transcribe_run _ _)]
      exact ⟨_, _, rfl⟩
    | timedOut soFar => exact ⟨c.files, log, rfl⟩
    | ended left => exact ⟨c.files, log, rfl⟩

/-- **Listening answers with what is heard**, and keeps what is left. -/
theorem listen_effect (running : c.engine = some e) :
    ∃ files log, (listen engine l).effect c =
      match hear engine (Text.Utf8.encode l.prompt) (l.deadline (engine.clock e)) c.pending e with
      | some (heard, pending, e') =>
        { outcome := l.answer (some heard)
          next := { c with files := files, engine := some e', pending := pending }
          log := log }
      | none => { outcome := l.answer none, next := c, log := log } := by
  obtain ⟨files, log, run⟩ := listen_run engine l running []
  refine ⟨files, log, ?_⟩
  cases hears : hear engine (Text.Utf8.encode l.prompt) (l.deadline (engine.clock e))
      c.pending e with
  | none =>
    rw [hears] at run
    exact effect_of_run run
  | some found =>
    rw [hears] at run
    exact effect_of_run run

/-- **An exchange hands a text over and listens**, in the conversation behind the text. -/
theorem exchange_effect {e₁ : ε} {text : String} (running : c.engine = some e)
    (takes : engine.feed (Text.Utf8.encode text) e = some e₁) :
    ∃ files log, (exchange engine l text).effect c =
      match hear engine (Text.Utf8.encode l.prompt) (l.deadline (engine.clock e₁)) c.pending e₁ with
      | some (heard, pending, e') =>
        { outcome := l.answer (some heard)
          next := { c with files := files, engine := some e', pending := pending }
          log := log }
      | none => { outcome := l.answer none, next := { c with files, engine := some e₁ }, log } := by
  have sends := send_run engine l running text []
  rw [takes] at sends
  obtain ⟨files, log, listens⟩ := listen_run engine l (e := e₁)
    (c := { c with files := c.transcribed text, engine := some e₁ }) rfl
    [⟨.debug, "Sending: " ++ Text.stripRight text⟩]
  have run := (bind_run (f := fun _ => listen engine l) sends).trans listens
  cases hears : hear engine (Text.Utf8.encode l.prompt) (l.deadline (engine.clock e₁))
      c.pending e₁ with
  | none =>
    rw [hears] at run
    exact ⟨_, _, effect_of_run run⟩
  | some found =>
    rw [hears] at run
    exact ⟨_, _, effect_of_run run⟩

theorem exchange_of_hears (text : String) {e₁ e' : ε} {heard : Channel.Heard}
    {pending : Channel.Bytes} (running : c.engine = some e)
    (takes : engine.feed (Text.Utf8.encode text) e = some e₁)
    (hears : hear engine (Text.Utf8.encode l.prompt) (l.deadline (engine.clock e₁)) c.pending e₁ =
      some (heard, pending, e')) :
    ∃ files log, (exchange engine l text).effect c =
      { outcome := l.answer (some heard)
        next := { c with files := files, engine := some e', pending := pending }
        log := log } := by
  obtain ⟨files, log, effect⟩ := exchange_effect engine l running takes
  rw [hears] at effect
  exact ⟨files, log, effect⟩

/-- Nobody listens for the reply to a text that was not handed over. -/
theorem exchange_effect_of_unsent {text : String} {f : Fault}
    (fails : ((send engine l text).effect c).outcome = .error f) :
    ((exchange engine l text).effect c).outcome = .error f ∧
      ((exchange engine l text).effect c).next = ((send engine l text).effect c).next := by
  obtain ⟨outcome, c', log, run⟩ : ∃ outcome c' log,
      (send engine l text).run (c, []) = (outcome, c', log) := ⟨_, _, _, rfl⟩
  rw [effect_of_run run] at fails ⊢
  dsimp only at fails
  subst fails
  rw [exchange, effect_of_run (bind_run_of_error run)]
  exact ⟨rfl, rfl⟩

theorem exit_run (running : c.engine = some e) (log : List Log.Record) :
    ∃ files log', (exit engine l).run (c, log) = (.ok (Text.Utf8.decode
      (c.pending ++ (engine.close (engine.clock e + l.grace.inUnits 1000000000) e).1)),
      { files := files }, log') := by
  unfold exit
  rw [bind_run (runningEngine_run running log)]
  dsimp only
  -- A warning, if the engine has to be killed, only goes to the log.
  split
  · rw [bind_run (record_run _ _ _), bind_run (current_run _), bind_run (change_run _ _),
      bind_run (record_run _ _ _), bind_run (transcribe_run _ _)]
    exact ⟨_, _, rfl⟩
  · rw [bind_run (current_run _), bind_run (change_run _ _), bind_run (record_run _ _ _),
      bind_run (transcribe_run _ _)]
    exact ⟨_, _, rfl⟩

/-- **The exit gives what was not given**: what is pending, and what the engine writes
until its end. -/
theorem exit_effect (running : c.engine = some e) :
    ∃ files log, (exit engine l).effect c =
      { outcome := .ok (Text.Utf8.decode
          (c.pending ++ (engine.close (engine.clock e + l.grace.inUnits 1000000000) e).1))
        next := { files := files }
        log := log } := by
  obtain ⟨files, log, run⟩ := exit_run engine l running []
  exact ⟨files, log, effect_of_run run⟩

/-! ## The start -/

theorem openTranscript_run (log : List Log.Record) :
    ∃ outcome files transcript, (openTranscript l : Use ε Unit).run (c, log) =
      (outcome, { c with files := files, transcript := transcript }, log) := by
  unfold openTranscript
  cases l.transcript with
  | none => exact ⟨_, c.files, c.transcript, rfl⟩
  | some path =>
    dsimp only
    rw [bind_run (current_run log)]
    cases c.files.truncate path with
    | error f => exact ⟨_, c.files, c.transcript, rfl⟩
    | ok found => exact ⟨_, _, _, rfl⟩

/-- Nothing is left of an engine that is abandoned. -/
theorem abandon_run (running : c.engine = some e) (log : List Log.Record) :
    ∃ files log', (abandon engine l).run (c, log) = (.ok (), { files := files }, log') := by
  have killed : ({ c with engine := c.engine.map engine.kill } : Conversation ε).engine =
      some (engine.kill e) := by
    rw [running]
    rfl
  obtain ⟨files, log', run⟩ := exit_run engine l killed log
  refine ⟨files, log', ?_⟩
  unfold abandon
  rw [bind_run (change_run _ log), discard_run, run]
  rfl

/-- A greeting is heard, or the engine is given up. -/
theorem greet_run (running : c.engine = some e) (log : List Log.Record) :
    (∃ bytes pending e' files log',
      hear engine (Text.Utf8.encode l.prompt) (l.deadline (engine.clock e)) c.pending e =
        some (.reply bytes, pending, e') ∧
      (tryCatch (listen engine l) fun f => do abandon engine l; throw f).run (c, log) =
        (.ok (Text.Utf8.decode bytes),
          { c with files := files, engine := some e', pending := pending }, log')) ∨
    ∃ f files log',
      (tryCatch (listen engine l) fun f => do abandon engine l; throw f).run (c, log) =
        (.error f, { files := files }, log') := by
  have given_up {f : Fault} {c' : Conversation ε} {e' : ε} {log' : List Log.Record}
      (runs : c'.engine = some e') (fails : (listen engine l).run (c, log) = (.error f, c', log')) :
      ∃ f files log', (tryCatch (listen engine l) fun f => do abandon engine l; throw f).run
        (c, log) = (.error f, { files := files }, log') := by
    obtain ⟨files, log'', abandoned⟩ := abandon_run engine l runs log'
    rw [try_run_of_error fails, bind_run abandoned]
    exact ⟨f, files, log'', rfl⟩
  obtain ⟨files, log', listens⟩ := listen_run engine l running log
  cases hears : hear engine (Text.Utf8.encode l.prompt) (l.deadline (engine.clock e))
      c.pending e with
  | none =>
    rw [hears] at listens
    exact .inr (given_up running listens)
  | some found =>
    obtain ⟨heard, pending, e'⟩ := found
    rw [hears] at listens
    cases heard with
    | reply bytes => exact .inl ⟨bytes, pending, e', files, log', rfl, try_run listens _⟩
    | timedOut soFar => exact .inr (given_up rfl listens)
    | ended left => exact .inr (given_up rfl listens)

/-- An engine that greets is there behind the start, with what is pending behind its
greeting; no transcript is written. -/
theorem start_of_greeting {bytes pending : Channel.Bytes} {e' : ε} (stopped : c.engine = none)
    (unwritten : l.transcript = none)
    (launched : engine.launch c.files l.program l.arguments.tail = .ok e)
    (greets : l.greets = true)
    (hears : hear engine (Text.Utf8.encode l.prompt) (l.deadline (engine.clock e)) c.pending e =
      some (.reply bytes, pending, e')) :
    ∃ files, ((start engine l).effect c).next =
      { c with files := files, engine := some e', pending := pending } := by
  have opening : (openTranscript l : Use ε Unit).run (c, []) = (.ok (), c, []) := by
    unfold openTranscript
    rw [unwritten]
    rfl
  obtain ⟨files, log, listens⟩ := listen_run engine l (c := { c with engine := some e }) rfl
    [⟨.debug, "Running " ++ l.name ++ ": " ++ String.intercalate " " l.arguments⟩]
  dsimp only at listens
  rw [hears] at listens
  refine ⟨files, ?_⟩
  have run : (start engine l).run (c, []) = (.ok (Text.Utf8.decode bytes),
      { c with files := files, engine := some e', pending := pending }, log) := by
    unfold start
    rw [bind_run (current_run [])]
    simp only [stopped, Option.isSome_none, Bool.false_eq_true, if_false]
    rw [bind_run opening, bind_run (record_run _ _ _), bind_run (current_run _), launched]
    dsimp only
    rw [bind_run (change_run _ _), if_pos greets]
    exact try_run listens _
  rw [effect_of_run run]

/-- How a start goes in a conversation in which no engine runs. -/
inductive Started (c : Conversation ε) : Except Fault String → Conversation ε → Prop
  /-- There is no transcript to write, or no engine. -/
  | failed {f : Fault} {files : Files} {transcript : Option Place} :
      Started c (.error f) { c with files := files, transcript := transcript }
  | silent {files files' : Files} {transcript : Option Place} {e : ε}
      (launched : engine.launch files l.program l.arguments.tail = .ok e)
      (greets : l.greets = false) :
      Started c (.ok "") { c with files := files', engine := some e, transcript := transcript }
  | greeted {files files' : Files} {transcript : Option Place} {e e' : ε}
      {bytes pending : Channel.Bytes}
      (launched : engine.launch files l.program l.arguments.tail = .ok e)
      (greets : l.greets = true)
      (hears : hear engine (Text.Utf8.encode l.prompt) (l.deadline (engine.clock e)) c.pending e =
        some (.reply bytes, pending, e')) :
      Started c (.ok (Text.Utf8.decode bytes))
        { files := files', engine := some e', pending := pending, transcript := transcript }
  /-- The engine did not greet, and was given up. -/
  | abandoned {f : Fault} {files : Files} : Started c (.error f) { files := files }

/-- **A start launches the engine and hears its greeting**, or leaves no engine behind. -/
theorem start_effect (stopped : c.engine = none) :
    Started engine l c ((start engine l).effect c).outcome ((start engine l).effect c).next := by
  suffices goes : ∃ outcome c' log, (start engine l).run (c, []) = (outcome, c', log) ∧
      Started engine l c outcome c' by
    obtain ⟨outcome, c', log, run, started⟩ := goes
    rw [effect_of_run run]
    exact started
  obtain ⟨opened, files, transcript, opening⟩ := openTranscript_run l (c := c) []
  unfold start
  rw [bind_run (current_run [])]
  simp only [stopped, Option.isSome_none, Bool.false_eq_true, if_false]
  cases opened with
  | error f =>
    rw [bind_run_of_error opening]
    exact ⟨_, _, _, rfl, .failed⟩
  | ok done =>
    rw [bind_run opening, bind_run (record_run _ _ _), bind_run (current_run _)]
    dsimp only
    cases launched : engine.launch files l.program l.arguments.tail with
    | error f => exact ⟨_, _, _, rfl, .failed⟩
    | ok e =>
      dsimp only
      rw [bind_run (change_run _ _)]
      cases greets : l.greets with
      | false => exact ⟨_, _, _, rfl, .silent launched greets⟩
      | true =>
        rw [if_pos rfl]
        rcases greet_run engine l (c := { c with files, engine := some e, transcript }) rfl _ with
          ⟨bytes, pending, e', files', log, hears, run⟩ | ⟨f, files', log, run⟩
        · exact ⟨_, _, _, run, .greeted launched greets hears⟩
        · exact ⟨_, _, _, run, .abandoned⟩

end Conversation

end SmtSession
