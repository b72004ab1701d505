import SmtSession.Proofs.Conversation.Listening
import SmtSession.Proofs.Engine.Dialogue

/-!
# Which reply belongs to which command

**Calls return the replies in order**, over every engine that answers each command with one
reply: `replies_in_order`. The call that returns behind so many others returns the reply to
the command with that number. So as long as every call returns, each returns the reply to
its own command.

A call that gave up has no part in this: its reply comes late, and is taken by the next
call. From then on each call returns the reply to an earlier command, and nothing tells:
`late_reply_misplaced`.
-/

namespace SmtSession

open Channel (Arrival Bytes Heard Listened Single replies received)

namespace Conversation

variable {ε : Type} {engine : Engine ε} {l : Launch} {c : Conversation ε} {e : ε}

/-- Exchanges texts one behind the other: the answers, and the conversation behind them. -/
def exchanges (engine : Engine ε) (l : Launch) :
    List String → Conversation ε → List (Except Fault String) × Conversation ε
  | [], c => ([], c)
  | wire :: more, c =>
    let effect := (exchange engine l wire).effect c
    let behind := exchanges engine l more effect.next
    (effect.outcome :: behind.1, behind.2)

/-- Nothing is exchanged where no engine runs. -/
theorem exchanges_of_stopped (stopped : c.engine = none) (wires : List String) :
    ∀ answer ∈ (exchanges engine l wires c).1, answer.isOk = false := by
  induction wires with
  | nil => exact nofun
  | cons wire more ih =>
    have unsent : ((send engine l wire).effect c).outcome = .error (l.fault "is not running") := by
      rw [send, effect_of_stopped stopped]
    obtain ⟨outcome, next⟩ := exchange_effect_of_unsent engine l unsent
    have kept : ((send engine l wire).effect c).next = c := by rw [send, effect_of_stopped stopped]
    rw [exchanges, next, kept, outcome]
    exact List.forall_mem_cons.mpr ⟨rfl, ih⟩

/-- **An exchange tells a command and listens once**, or waits without an end. -/
theorem exchange_listened {wire : String} {e₁ : ε} (running : c.engine = some e)
    (takes : engine.feed (Text.Utf8.encode wire) e = some e₁) :
    ∃ (heard : Option Heard) (arrivals : List Arrival) (e' : ε),
      ((exchange engine l wire).effect c).outcome = l.answer heard ∧
      ((exchange engine l wire).effect c).next.engine = some e' ∧
      engine.Dialogue e [Text.Utf8.encode wire] arrivals e' ∧
      Listened (Text.Utf8.encode l.prompt) c.pending arrivals heard.toList
        ((exchange engine l wire).effect c).next.pending := by
  obtain ⟨files, log, effect⟩ := exchange_effect engine l running takes
  cases hears : hear engine (Text.Utf8.encode l.prompt) (l.deadline (engine.clock e₁))
      c.pending e₁ with
  | none =>
    rw [hears] at effect
    rw [effect]
    exact ⟨none, [], e₁, rfl, rfl, .told takes (.still e₁), .nil c.pending⟩
  | some found =>
    obtain ⟨heard, pending, e'⟩ := found
    rw [hears] at effect
    rw [effect]
    obtain ⟨arrivals, brings, ends⟩ := hear_brings hears
    exact ⟨some heard, arrivals, e', rfl, rfl, .told takes brings.dialogue, Listened.once ends⟩

/-- **Exchanges tell all commands and listen again and again.** -/
theorem exchanges_listened (running : c.engine = some e)
    (takes : ∀ {said arrivals e'}, engine.Dialogue e said arrivals e' →
      ∀ command, (engine.feed command e').isSome = true) (wires : List String) :
    ∃ (heards : List (Option Heard)) (arrivals : List Arrival) (e' : ε),
      (exchanges engine l wires c).1 = heards.map l.answer ∧
      engine.Dialogue e (wires.map Text.Utf8.encode) arrivals e' ∧
      Listened (Text.Utf8.encode l.prompt) c.pending arrivals (heards.filterMap id)
        (exchanges engine l wires c).2.pending := by
  induction wires generalizing c e with
  | nil => exact ⟨[], [], e, rfl, .still e, .nil c.pending⟩
  | cons wire more ih =>
    obtain ⟨e₁, took⟩ := Option.isSome_iff_exists.mp (takes (.still e) (Text.Utf8.encode wire))
    obtain ⟨heard, here, e₂, answer, running', dialogue, once⟩ :=
      exchange_listened (l := l) running took
    obtain ⟨heards, arrivals, e', answers, dialogue', listened⟩ :=
      ih running' fun later => takes (dialogue.append later)
    refine ⟨heard :: heards, here ++ arrivals, e', ?_, dialogue.append dialogue', ?_⟩
    · rw [List.map_cons, ← answer, ← answers]
      rfl
    · have all : (heard :: heards).filterMap id = heard.toList ++ heards.filterMap id := by
        cases heard with
        | none => rfl
        | some heard => rfl
      rw [all]
      exact once.append listened

/-! ## The place of a reply -/

/-- So many calls returned as replies were heard. -/
theorem length_replies (l : Launch) (heards : List (Option Heard)) :
    (replies (heards.filterMap id)).length = (heards.map l.answer).countP Except.isOk := by
  induction heards with
  | nil => rfl
  | cons heard heards ih =>
    rw [List.map_cons, List.countP_cons, ← ih]
    match heard with
    | none | some (.timedOut soFar) | some (.ended left) => rfl
    | some (.reply bytes) => rfl

/-- A call that returned was given the reply at the place of its return. -/
theorem reply_of_returned {heards : List (Option Heard)} {before after : List (Except Fault String)}
    {text : String} (whole : heards.map l.answer = before ++ .ok text :: after) :
    ∃ bytes, text = Text.Utf8.decode bytes ∧
      (replies (heards.filterMap id))[before.countP Except.isOk]? = some bytes := by
  obtain ⟨first, behind, rfl, rfl, split⟩ := List.map_eq_append_iff.mp whole
  obtain ⟨heard, later, rfl, returned, -⟩ := List.map_eq_cons_iff.mp split
  match heard with
  | none | some (.timedOut soFar) | some (.ended left) => cases returned
  | some (.reply bytes) =>
    cases returned
    refine ⟨bytes, rfl, ?_⟩
    have place : replies ((first ++ some (.reply bytes) :: later).filterMap id) =
        replies (first.filterMap id) ++ bytes :: replies (later.filterMap id) := by
      rw [List.filterMap_append, replies, List.filterMap_append]
      rfl
    rw [place, ← length_replies, List.getElem?_append_right (Nat.le_refl _), Nat.sub_self]
    rfl

/-- **What is heard of an engine that answers are its answers**, from the greeting on. -/
theorem replies_answered {prompt pending' : Bytes} {greeting said : List Bytes}
    {reply : List Bytes → Bytes} {arrivals : List Arrival} {heards : List Heard} {e' : ε}
    (nonempty : prompt ≠ []) (answers : engine.Answers prompt greeting reply e)
    (dialogue : engine.Dialogue e said arrivals e')
    (listened : Listened prompt [] arrivals heards pending') :
    replies heards <+: greeting ++ Engine.repliesTo reply [] said := by
  obtain ⟨pieces, left, cuts⟩ := Channel.exists_pieces nonempty (received arrivals)
  have singles : ∀ piece ∈ greeting ++ Engine.repliesTo reply [] said, Single prompt piece :=
    List.forall_mem_append.mpr
      ⟨answers.greets, Engine.forall_mem_repliesTo answers.single [] said⟩
  have ends := answers.closes dialogue
  rw [← List.append_nil arrivals] at ends
  have whole : Channel.Pieces prompt ([] ++ received (arrivals ++ [])) pieces left := by
    rwa [List.nil_append, List.append_nil]
  have given : replies heards <+: pieces := listened.replies_prefix nonempty ends whole
  exact given.trans (cuts.prefix_of_singles nonempty singles (answers.writes dialogue))

/-! ## Calls and their commands -/

/-- What it is for calls to return the replies in order, when these were their answers. -/
structure InOrder (reply : List Bytes → Bytes) (said : List Bytes)
    (answers : List (Except Fault String)) : Prop where
  /-- The call behind so many that returned has the reply to the command of that number. -/
  returns : ∀ before text after, answers = before ++ .ok text :: after →
    text = Text.Utf8.decode (reply (said.take (before.countP Except.isOk + 1)))
  /-- It is the reply to its own command when all calls before it returned. -/
  paired : ∀ before text after, answers = before ++ .ok text :: after →
    (∀ answer ∈ before, answer.isOk = true) →
    text = Text.Utf8.decode (reply (said.take (before.length + 1)))

/-- The second says no more than the first. -/
theorem InOrder.of_returns {reply : List Bytes → Bytes} {said : List Bytes}
    {answers : List (Except Fault String)}
    (returns : ∀ before text after, answers = before ++ .ok text :: after →
      text = Text.Utf8.decode (reply (said.take (before.countP Except.isOk + 1)))) :
    InOrder reply said answers := by
  refine ⟨returns, fun before text after whole all => ?_⟩
  rw [← List.countP_eq_length.mpr all]
  exact returns before text after whole

/-- Replies that are the first of those to some commands are returned in order. -/
theorem inOrder_of_prefix {reply : List Bytes → Bytes} {said : List Bytes}
    {heards : List (Option Heard)}
    (first : replies (heards.filterMap id) <+: Engine.repliesTo reply [] said) :
    InOrder reply said (heards.map l.answer) := by
  refine .of_returns fun before text after whole => ?_
  obtain ⟨bytes, rfl, there⟩ := reply_of_returned whole
  obtain ⟨later, all⟩ := first
  have place : (Engine.repliesTo reply [] said)[before.countP Except.isOk]? = some bytes := by
    rw [← all, List.getElem?_append_left (List.getElem?_eq_some_iff.mp there).1]
    exact there
  rw [Engine.getElem?_repliesTo place, List.nil_append]

/-- **Calls return the replies in order.** Whatever the chunks the output comes in, and
whichever calls give up on the way: behind the start, the call that returns as the k-th
returns the reply to the k-th command. -/
theorem replies_in_order {greeting : Bytes} {reply : List Bytes → Bytes}
    (nonempty : l.prompt ≠ "")
    (answers : ∀ files e, engine.launch files l.program l.arguments.tail = .ok e →
      engine.Answers (Text.Utf8.encode l.prompt) (if l.greets then [greeting] else []) reply e)
    (stopped : c.engine = none) (empty : c.pending = []) (wires : List String) :
    InOrder reply (wires.map Text.Utf8.encode)
      (exchanges engine l wires ((start engine l).effect c).next).1 := by
  have prompted := Text.Utf8.encode_ne_nil nonempty
  have nothing (gone : ((start engine l).effect c).next.engine = none) :
      InOrder reply (wires.map Text.Utf8.encode)
        (exchanges engine l wires ((start engine l).effect c).next).1 := by
    refine .of_returns fun before text after whole => ?_
    have there :
        Except.ok text ∈ (exchanges engine l wires ((start engine l).effect c).next).1 := by
      rw [whole]
      exact List.mem_append_right before List.mem_cons_self
    cases exchanges_of_stopped gone wires _ there
  have started := start_effect engine l stopped
  generalize ((start engine l).effect c).outcome = outcome at started
  generalize ((start engine l).effect c).next = c₁ at started nothing ⊢
  cases started with
  | failed => exact nothing stopped
  | abandoned => exact nothing rfl
  | @silent files files' transcript e launched greets =>
    have answering := answers files e launched
    rw [greets] at answering
    obtain ⟨heards, arrivals, e', outcomes, dialogue, listened⟩ := exchanges_listened (l := l)
      (c := { c with files := files', engine := some e, transcript := transcript }) rfl
      answering.takes wires
    dsimp only at listened
    rw [empty] at listened
    rw [outcomes]
    exact inOrder_of_prefix (replies_answered prompted answering dialogue listened)
  | @greeted files files' transcript e e₁ bytes pending launched greets hears =>
    have answering := answers files e launched
    rw [greets] at answering
    obtain ⟨here, brings, ends⟩ := hear_brings hears
    obtain ⟨heards, arrivals, e', outcomes, dialogue, listened⟩ := exchanges_listened (l := l)
      (c := ⟨files', some e₁, pending, transcript⟩) rfl
      (fun later => answering.takes (brings.dialogue.append later)) wires
    rw [empty] at ends
    have all := replies_answered prompted answering (brings.dialogue.append dialogue)
      ((Listened.once ends).append listened)
    -- The first reply that is heard is the greeting.
    obtain ⟨-, first⟩ := List.cons_prefix_cons.mp all
    rw [outcomes]
    exact inOrder_of_prefix first

/-! ## A slow engine -/

/-- What a slow engine does for a command: with the first it takes longer than anyone
waits. -/
def slowly (said : List Bytes) : List Arrival :=
  if said.length = 1 then [.deadline, .chunk (Text.Utf8.encode "sat\n> ")]
  else [.chunk (Text.Utf8.encode "(= x 0)\n> ")]

/-- An engine that is slow. -/
def slow : Engine (List Bytes × List Arrival) :=
  .answering [.chunk (Text.Utf8.encode "> ")] slowly

/-- How it is run. -/
def slowLaunch : Launch :=
  { arguments := ["yices"], prompt := "> ", patience := some (.ofInt 2) }

theorem slow_answers (files : Files) (e : List Bytes × List Arrival)
    (launched : slow.launch files slowLaunch.program slowLaunch.arguments.tail = .ok e) :
    slow.Answers (Text.Utf8.encode slowLaunch.prompt) [Text.Utf8.encode "> "]
      (fun said => received (slowly said)) e := by
  cases launched
  refine Engine.answering_answers ?greets ?whole ?single (by simp) ?open_answers
  case greets => exact List.forall_mem_singleton.mpr (.of_cut (by decide +kernel))
  case whole => decide +kernel
  case single =>
    intro said
    unfold slowly
    split
    · exact .of_cut (by decide +kernel)
    · exact .of_cut (by decide +kernel)
  case open_answers =>
    intro said
    unfold slowly
    split
    · simp
    · simp

/-- The calls of a slow engine are answered in order, whatever the first one ends with. -/
theorem replies_in_order_slow :
    slowLaunch.prompt ≠ "" ∧
    (∀ files e, slow.launch files slowLaunch.program slowLaunch.arguments.tail = .ok e →
      slow.Answers (Text.Utf8.encode slowLaunch.prompt)
        (if slowLaunch.greets then [Text.Utf8.encode "> "] else [])
        (fun said => received (slowly said)) e) ∧
    InOrder (fun said => received (slowly said))
      (["(check)\n", "(get-value x)\n"].map Text.Utf8.encode)
      (exchanges slow slowLaunch ["(check)\n", "(get-value x)\n"]
        ((start slow slowLaunch).effect {}).next).1 := by
  have nonempty : slowLaunch.prompt ≠ "" := by decide
  exact ⟨nonempty, slow_answers, replies_in_order nonempty slow_answers rfl rfl _⟩

/-- What the two calls of a slow engine end with: the first gives up, and the second has
the reply to the first. -/
theorem exchanges_slow :
    ∃ fault, (exchanges slow slowLaunch ["(check)\n", "(get-value x)\n"]
        ((start slow slowLaunch).effect {}).next).1 =
      [.error fault, .ok (Text.Utf8.decode (Text.Utf8.encode "sat\n> "))] := by
  let check := Text.Utf8.encode "(check)\n"
  let value := Text.Utf8.encode "(get-value x)\n"
  let sat : Arrival := .chunk (Text.Utf8.encode "sat\n> ")
  let model : Arrival := .chunk (Text.Utf8.encode "(= x 0)\n> ")
  have greeted : hear slow (Text.Utf8.encode slowLaunch.prompt) (slowLaunch.deadline 0) []
      ([], [.chunk (Text.Utf8.encode "> ")]) =
        some (.reply (Text.Utf8.encode "> "), [], ([], [])) :=
    hear_of_brings (.cons rfl (.nil _)) (by decide +kernel)
  have given_up : hear slow (Text.Utf8.encode slowLaunch.prompt) (slowLaunch.deadline 0) []
      ([check], [.deadline, sat]) = some (.timedOut [], [], ([check], [sat])) :=
    hear_of_brings (.cons rfl (.nil _)) (by decide +kernel)
  have late : hear slow (Text.Utf8.encode slowLaunch.prompt) (slowLaunch.deadline 0) []
      ([check, value], [sat, model]) =
        some (.reply (Text.Utf8.encode "sat\n> "), [], ([check, value], [model])) :=
    hear_of_brings (.cons rfl (.nil _)) (by decide +kernel)
  obtain ⟨files, started⟩ := start_of_greeting slow slowLaunch (c := {}) rfl rfl rfl rfl greeted
  obtain ⟨files₁, log₁, first⟩ := exchange_of_hears slow slowLaunch "(check)\n"
    (c := { files := files, engine := some ([], []) }) rfl rfl given_up
  obtain ⟨files₂, log₂, second⟩ := exchange_of_hears slow slowLaunch "(get-value x)\n"
    (c := { files := files₁, engine := some ([check], [sat]) }) rfl rfl late
  rw [started, exchanges, first, exchanges, second]
  exact ⟨_, rfl⟩

/-- **A late reply is taken for the reply to the next command.** -/
theorem late_reply_misplaced :
    ¬ ∀ (engine : Engine (List Bytes × List Arrival)) (l : Launch) (greeting : Bytes)
        (reply : List Bytes → Bytes), l.prompt ≠ "" →
      (∀ files e, engine.launch files l.program l.arguments.tail = .ok e →
        engine.Answers (Text.Utf8.encode l.prompt) (if l.greets then [greeting] else []) reply e) →
      ∀ (wires : List String) (before : List (Except Fault String)) (text : String)
        (after : List (Except Fault String)),
        (exchanges engine l wires ((start engine l).effect {}).next).1 =
          before ++ .ok text :: after →
        text =
          Text.Utf8.decode (reply ((wires.map Text.Utf8.encode).take (before.length + 1))) := by
  intro paired
  obtain ⟨fault, answers⟩ := exchanges_slow
  have nonempty : slowLaunch.prompt ≠ "" := by decide
  have own := paired slow slowLaunch (Text.Utf8.encode "> ") (fun said => received (slowly said))
    nonempty slow_answers _ [.error fault] _ [] answers
  have other : Text.Utf8.decode (Text.Utf8.encode "sat\n> ") ≠
      Text.Utf8.decode
        (received (slowly (["(check)\n", "(get-value x)\n"].map Text.Utf8.encode))) := by
    decide +kernel
  exact other own

end Conversation

end SmtSession
