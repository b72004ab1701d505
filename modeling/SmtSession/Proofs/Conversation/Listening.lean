import SmtSession.Proofs.Conversation.Effects
import SmtSession.Proofs.Engine.Arrivals
import SmtSession.Proofs.Text.Utf8

/-!
# Replies do not depend on how bytes arrive

**A conversation cuts the engine's output behind each prompt**, over every engine and
after any calls: `listening_delivers`. However the output comes in chunks, and whichever
calls give up on the way, the calls that return give its pieces in order, and what they
do not give is given at the end of the stream or at the exit.

An engine's output is what arrives from it in the course of the calls, as `Engine.Goes` has
it. A call that listens takes the arrivals up to the one that ends it (`hear_brings`), and
the rest is the theory of `Channel.Listened`.
-/

namespace SmtSession

open Channel (Arrival Bytes EndsOnce FirstAt Heard Listened Pieces Promptless received replies)

namespace Conversation

variable {ε : Type} {engine : Engine ε} {prompt pending pending' : Bytes} {deadline : Option Nat}
  {e e' : ε} {heard : Heard}

/-! ## Listening to an engine -/

/-- **Hearing is listening to what the engine brings**, up to the arrival that ends it. -/
theorem hear_brings (hears : hear engine prompt deadline pending e = some (heard, pending', e')) :
    ∃ arrivals, engine.Brings deadline e arrivals e' ∧
      Channel.listen prompt pending arrivals = some (heard, pending', []) := by
  revert hears
  suffices all : ∀ pending e r, hear engine prompt deadline pending e = some r →
      ∃ arrivals, engine.Brings deadline e arrivals r.2.2 ∧
        Channel.listen prompt pending arrivals = some (r.1, r.2.1, []) from
    fun hears => all pending e _ hears
  refine hear.partial_correctness engine prompt deadline _ ?_
  intro hear ih pending e r step
  split at step
  · next heard rest left ends =>
    cases step
    obtain ⟨used, nothing, -⟩ := Channel.listen_settles ends
    obtain ⟨rfl, rfl⟩ := List.append_eq_nil_iff.mp nothing.symm
    exact ⟨[], .nil e, ends⟩
  · next uncut =>
    split at step
    · cases step
    · next bytes e₁ gives =>
      obtain ⟨arrivals, brings, ends⟩ := ih _ _ _ step
      refine ⟨.chunk bytes :: arrivals, .cons gives brings, ?_⟩
      rw [Channel.listen_cons uncut]
      exact ends
    · next arrival e₁ other gives =>
      obtain ⟨⟨heard, rest, left⟩, ends, same⟩ := Option.map_eq_some_iff.mp step
      cases same
      refine ⟨[arrival], .cons gives (.nil e₁), ?_⟩
      rw [Channel.listen_cons uncut] at ends ⊢
      cases arrival with
      | chunk bytes => exact absurd rfl (other bytes)
      | deadline | closed =>
        cases ends
        rfl

/-- What the engine brings is what is heard, when listening takes all of it. -/
theorem hear_of_brings {arrivals : List Arrival} (brings : engine.Brings deadline e arrivals e')
    (ends : Channel.listen prompt pending arrivals = some (heard, pending', [])) :
    hear engine prompt deadline pending e = some (heard, pending', e') := by
  induction brings generalizing pending with
  | nil e => rw [hear, ends]
  | @cons e _ _ arrival more gives rest ih =>
    cases cut : Channel.listen prompt pending [] with
    | some found =>
      -- A reply that is there already takes no arrival.
      rw [Channel.listen_nil] at cut
      obtain ⟨⟨reply, rest⟩, found, rfl⟩ := Option.map_eq_some_iff.mp cut
      rw [Channel.listen.eq_def, found] at ends
      cases ends
    | none =>
      rw [Channel.listen_cons cut] at ends
      rw [hear, cut]
      cases arrival with
      | chunk bytes =>
        simp only [gives]
        exact ih ends
      | deadline | closed =>
        cases ends
        cases rest
        simp only [gives, Channel.listen_cons cut]
        rfl

/-- Chunks that bring no prompt are only collected. -/
theorem hear_collects {chunks : List Bytes}
    (brings : engine.Brings deadline e (chunks.map .chunk) e')
    (promptless : Promptless prompt (pending ++ chunks.flatten)) :
    hear engine prompt deadline pending e =
      hear engine prompt deadline (pending ++ chunks.flatten) e' := by
  induction chunks generalizing pending e with
  | nil =>
    cases brings with
    | nil => rw [List.flatten_nil, List.append_nil]
  | cons chunk chunks ih =>
    cases brings with
    | cons gives rest =>
      have uncut := Channel.listen_eq_none promptless.of_append
      rw [List.flatten_cons, ← List.append_assoc] at promptless ⊢
      rw [← ih rest promptless, hear, uncut]
      simp only [gives]

/-- **A deadline before a prompt** shows what there is and keeps it. -/
theorem hear_timedOut (promptless : Promptless prompt pending)
    (gives : engine.next deadline e = (some .deadline, e')) :
    hear engine prompt deadline pending e = some (.timedOut pending, pending, e') := by
  refine hear_of_brings (.cons gives (.nil e')) ?_
  rw [Channel.listen_cons (Channel.listen_eq_none promptless)]

/-- **The end of the stream before a prompt** gives what there is away. -/
theorem hear_ended (promptless : Promptless prompt pending)
    (gives : engine.next deadline e = (some .closed, e')) :
    hear engine prompt deadline pending e = some (.ended pending, [], e') := by
  refine hear_of_brings (.cons gives (.nil e')) ?_
  rw [Channel.listen_cons (Channel.listen_eq_none promptless)]

/-- **What ends with the first prompt is heard**, when the engine brings it in time. -/
theorem hear_reply {chunks : List Bytes} {front : Bytes}
    (brings : engine.Brings deadline e (chunks.map .chunk) e')
    (there : FirstAt prompt (pending ++ chunks.flatten) front) :
    ∃ pending' e', hear engine prompt deadline pending e =
      some (.reply (front ++ prompt), pending', e') := by
  induction chunks generalizing pending e with
  | nil =>
    rw [List.flatten_nil, List.append_nil] at there
    cases cut : Channel.cut? prompt pending with
    | none => exact absurd there.here (Channel.cut?_eq_none cut front)
    | some found =>
      obtain ⟨reply, rest⟩ := found
      obtain ⟨front', rfl, -, first⟩ := Channel.cut?_eq_some cut
      rw [hear, Channel.listen_nil, cut, there.unique first]
      exact ⟨rest, e, rfl⟩
  | cons chunk chunks ih =>
    cases cut : Channel.cut? prompt pending with
    | none =>
      cases brings with
      | cons gives brought =>
        rw [List.flatten_cons, ← List.append_assoc] at there
        rw [hear, Channel.listen_nil, cut]
        simp only [Option.map_none, gives]
        exact ih brought there
    | some found =>
      obtain ⟨reply, rest⟩ := found
      obtain ⟨front', rfl, -, first⟩ := Channel.cut?_eq_some cut
      -- What comes later does not move the first prompt.
      rw [hear, Channel.listen_nil, cut, there.unique (first.append _)]
      exact ⟨rest, e, rfl⟩

/-! ## Calls -/

/-- A call in a conversation: it hands text over, or it listens. -/
inductive Call
  | send (text : String)
  | listen

/-- Makes calls one behind the other: the answers of those that listen, and the
conversation behind them. -/
def calls (engine : Engine ε) (l : Launch) :
    List Call → Conversation ε → List (Except Fault String) × Conversation ε
  | [], c => ([], c)
  | .send text :: more, c => calls engine l more ((send engine l text).effect c).next
  | .listen :: more, c =>
    let effect := (listen engine l).effect c
    let behind := calls engine l more effect.next
    (effect.outcome :: behind.1, behind.2)

variable {l : Launch} {c : Conversation ε}

/-- Handing text over leaves the bytes pending alone. -/
theorem send_goes (running : c.engine = some e) (text : String) :
    ∃ e', ((send engine l text).effect c).next.engine = some e' ∧ engine.Goes e [] e' ∧
      ((send engine l text).effect c).next.pending = c.pending := by
  rw [send_effect engine l running text]
  refine ⟨_, rfl, ?_, rfl⟩
  cases takes : engine.feed (Text.Utf8.encode text) e with
  | none => exact .still e
  | some fed => exact .fed takes (.still fed)

/-- One call listens once, or waits without an end. -/
theorem listen_listened (running : c.engine = some e) :
    ∃ (heard : Option Heard) (arrivals : List Arrival) (e' : ε),
      ((listen engine l).effect c).outcome = l.answer heard ∧
      ((listen engine l).effect c).next.engine = some e' ∧ engine.Goes e arrivals e' ∧
      Listened (Text.Utf8.encode l.prompt) c.pending arrivals heard.toList
        ((listen engine l).effect c).next.pending := by
  obtain ⟨files, log, effect⟩ := listen_effect engine l running
  cases hears : hear engine (Text.Utf8.encode l.prompt) (l.deadline (engine.clock e))
      c.pending e with
  | none =>
    rw [hears] at effect
    rw [effect]
    exact ⟨none, [], e, rfl, running, .still e, .nil c.pending⟩
  | some found =>
    obtain ⟨heard, pending, e'⟩ := found
    rw [hears] at effect
    rw [effect]
    obtain ⟨arrivals, brings, ends⟩ := hear_brings hears
    exact ⟨some heard, arrivals, e', rfl, rfl, brings.goes, Listened.once ends⟩

/-- **Calls are listening again and again** to what the engine does in their course. -/
theorem calls_listened (running : c.engine = some e) (todo : List Call) :
    ∃ (heards : List (Option Heard)) (arrivals : List Arrival) (e' : ε),
      (calls engine l todo c).1 = heards.map l.answer ∧
      (calls engine l todo c).2.engine = some e' ∧ engine.Goes e arrivals e' ∧
      Listened (Text.Utf8.encode l.prompt) c.pending arrivals (heards.filterMap id)
        (calls engine l todo c).2.pending := by
  induction todo generalizing c e with
  | nil => exact ⟨[], [], e, rfl, running, .still e, .nil c.pending⟩
  | cons call more ih =>
    cases call with
    | send text =>
      obtain ⟨e₁, next, goes, kept⟩ := send_goes (l := l) (e := e) running text
      obtain ⟨heards, arrivals, e', answers, running', goes', listened⟩ := ih next
      rw [kept] at listened
      exact ⟨heards, arrivals, e', answers, running', goes.append goes', listened⟩
    | listen =>
      obtain ⟨heard, here, e₁, answer, next, goes, once⟩ := listen_listened (l := l) running
      obtain ⟨heards, arrivals, e', answers, running', goes', listened⟩ := ih next
      refine ⟨heard :: heards, here ++ arrivals, e', ?_, running', goes.append goes', ?_⟩
      · rw [List.map_cons, ← answer, ← answers]
        rfl
      · have all : (heard :: heards).filterMap id = heard.toList ++ heards.filterMap id := by
          cases heard with
          | none => rfl
          | some heard => rfl
        rw [all]
        exact once.append listened

/-! ## The stream and its pieces -/

/-- **What calls deliver of a stream**, when they heard this much of it and the
conversation is where it is. -/
structure Delivers (engine : Engine ε) (l : Launch) (pending : Bytes) (arrivals : List Arrival)
    (heards : List Heard) (c : Conversation ε) (e : ε) : Prop where
  /-- The replies are the first pieces of the whole stream, however it goes on. -/
  framed : ∀ later e', engine.Goes e later e' → ∃ pieces left,
    Pieces (Text.Utf8.encode l.prompt) (pending ++ received (arrivals ++ later)) pieces left ∧
      replies heards <+: pieces
  /-- What was given and what is kept are all that came. -/
  whole : heards.flatMap Heard.handed ++ c.pending = pending ++ received arrivals
  /-- The end of the stream gives what is behind its last piece, and nothing is left. -/
  ended : ∀ before left after, heards = before ++ .ended left :: after →
    (∀ other, .ended other ∉ before) →
    Pieces (Text.Utf8.encode l.prompt) (pending ++ received arrivals) (replies before) left ∧
      after.flatMap Heard.handed ++ c.pending = []
  /-- The exit gives what was not given yet. -/
  exit : ∃ last, ((Conversation.exit engine l).effect c).outcome = .ok (Text.Utf8.decode last) ∧
    heards.flatMap Heard.handed ++ last = pending ++ received arrivals ++
      (engine.close (engine.clock e + l.grace.inUnits 1000000000) e).1
  /-- The next call returns what ends with the first prompt that is there or comes in time. -/
  returns : ∀ (chunks : List Bytes) (front : Bytes) (e' : ε),
    engine.Brings (l.deadline (engine.clock e)) e (chunks.map .chunk) e' →
    FirstAt (Text.Utf8.encode l.prompt) (c.pending ++ chunks.flatten) front →
    ((listen engine l).effect c).outcome =
      l.answer (some (.reply (front ++ Text.Utf8.encode l.prompt)))
  /-- It gives up at a deadline or at the end of the stream when there is no prompt, and
  shows all that there is. -/
  gives_up : ∀ (chunks : List Bytes) (e₁ e₂ : ε),
    engine.Brings (l.deadline (engine.clock e)) e (chunks.map .chunk) e₁ →
    Promptless (Text.Utf8.encode l.prompt) (c.pending ++ chunks.flatten) →
    (engine.next (l.deadline (engine.clock e)) e₁ = (some .deadline, e₂) →
      ((listen engine l).effect c).outcome =
        l.answer (some (.timedOut (c.pending ++ chunks.flatten)))) ∧
    (engine.next (l.deadline (engine.clock e)) e₁ = (some .closed, e₂) →
      ((listen engine l).effect c).outcome =
        l.answer (some (.ended (c.pending ++ chunks.flatten))))

theorem listen_outcome (running : c.engine = some e)
    (hears : hear engine (Text.Utf8.encode l.prompt) (l.deadline (engine.clock e)) c.pending e =
      some (heard, pending', e')) :
    ((listen engine l).effect c).outcome = l.answer (some heard) := by
  obtain ⟨files, log, effect⟩ := listen_effect engine l running
  rw [hears] at effect
  rw [effect]

/-- **Replies do not depend on how bytes arrive.** Calls cut what the engine writes behind
each prompt, whatever the chunks it comes in and whichever calls give up. -/
theorem listening_delivers (nonempty : l.prompt ≠ "") (running : c.engine = some e)
    (closes : ∀ arrivals e', engine.Goes e arrivals e' → EndsOnce arrivals) (todo : List Call) :
    ∃ (heards : List (Option Heard)) (arrivals : List Arrival) (e' : ε),
      (calls engine l todo c).1 = heards.map l.answer ∧
      (calls engine l todo c).2.engine = some e' ∧ engine.Goes e arrivals e' ∧
      Delivers engine l c.pending arrivals (heards.filterMap id)
        (calls engine l todo c).2 e' := by
  obtain ⟨heards, arrivals, e', answers, running', goes, listened⟩ :=
    calls_listened running todo
  have prompted := Text.Utf8.encode_ne_nil nonempty
  refine ⟨heards, arrivals, e', answers, running', goes, ?_⟩
  constructor
  case framed =>
    intro later e'' goes'
    have ends := closes _ _ (goes.append goes')
    obtain ⟨pieces, left, cuts⟩ :=
      Channel.exists_pieces prompted (c.pending ++ received (arrivals ++ later))
    exact ⟨pieces, left, cuts, listened.replies_prefix prompted ends cuts⟩
  case whole => exact listened.conserves
  case ended =>
    intro before left after split first
    rw [split] at listened
    exact listened.pieces_of_ended (closes _ _ goes) first
  case exit =>
    obtain ⟨files, log, effect⟩ := exit_effect engine l running'
    refine ⟨_, congrArg (·.outcome) effect, ?_⟩
    rw [← List.append_assoc, listened.conserves]
  case returns =>
    intro chunks front e'' brings there
    obtain ⟨pending', e₃, hears⟩ := hear_reply brings there
    exact listen_outcome running' hears
  case gives_up =>
    intro chunks e₁ e₂ brings promptless
    have collects := hear_collects brings promptless
    constructor
    · intro gives
      exact listen_outcome running' (collects.trans (hear_timedOut promptless gives))
    · intro gives
      exact listen_outcome running' (collects.trans (hear_ended promptless gives))

/-- A prompt in two chunks with a deadline in between, and two replies in one chunk. -/
theorem listening_delivers_split_prompt :
    let l : Launch := { arguments := ["yices"], prompt := "> " }
    let script : List Arrival :=
      [.chunk (Text.Utf8.encode "sat\n>"), .deadline, .chunk (Text.Utf8.encode " unsat\n> Bye")]
    let c : Conversation (List Arrival) := { engine := some script }
    let todo : List Call := [.listen, .listen, .send "(exit)\n", .listen, .listen]
    l.prompt ≠ "" ∧ c.engine = some script ∧
    (∀ arrivals script', Engine.played.Goes script arrivals script' → EndsOnce arrivals) ∧
    ∃ (heards : List (Option Heard)) (arrivals : List Arrival) (script' : List Arrival),
      (calls Engine.played l todo c).1 = heards.map l.answer ∧
      (calls Engine.played l todo c).2.engine = some script' ∧
      Engine.played.Goes script arrivals script' ∧
      Delivers Engine.played l [] arrivals (heards.filterMap id)
        (calls Engine.played l todo c).2 script' := by
  intro l script c todo
  have nonempty : l.prompt ≠ "" := by decide
  have runs : Arrival.closed ∉ script := by simp [script]
  have closes : ∀ arrivals script', Engine.played.Goes script arrivals script' →
      EndsOnce arrivals := fun _ _ goes => Engine.played_endsOnce runs goes
  exact ⟨nonempty, rfl, closes, listening_delivers nonempty rfl closes todo⟩

end Conversation

end SmtSession
