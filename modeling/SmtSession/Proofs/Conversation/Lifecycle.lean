import SmtSession.Proofs.Conversation.Effects
import SmtSession.Proofs.Session.Lifecycle

/-!
# Conversations run while their engine is there

**A conversation keeps the laws of a transport that is started and ended**, over every
engine and however it is launched: `conversation_lifecycle`. It runs from the start that
brought an engine up to the exit that took it away, whether or not the engine still lives
then. So what is said of the life of sessions holds of sessions with real engines.
-/

namespace SmtSession

namespace Conversation

variable {ε : Type} (engine : Engine ε) (l : Launch) {c : Conversation ε}

/-- The start of a transport is that of its conversation, whatever the greeting. -/
theorem start_transport :
    ((Transport.conversation engine l).start c).outcome =
        ((start engine l).effect c).outcome.map (fun _ => ()) ∧
      ((Transport.conversation engine l).start c).next = ((start engine l).effect c).next := by
  obtain ⟨outcome, c', log, run⟩ : ∃ outcome c' log,
      (start engine l).run (c, []) = (outcome, c', log) := ⟨_, _, _, rfl⟩
  have discards := discard_run (start engine l) (c, [])
  rw [run] at discards
  change ((discard (start engine l) : Use ε Unit).effect c).outcome = _ ∧
    ((discard (start engine l) : Use ε Unit).effect c).next = _
  rw [effect_of_run run, effect_of_run discards]
  exact ⟨rfl, rfl⟩

/-- A start that failed leaves no engine behind, and one that succeeded left one. -/
theorem Started.engine_isSome {outcome : Except Fault String} {c' : Conversation ε}
    (started : Started engine l c outcome c') (stopped : c.engine = none) :
    c'.engine.isSome = outcome.isOk := by
  cases started with
  | failed =>
    dsimp only
    rw [stopped]
    rfl
  | silent | greeted | abandoned => rfl

/-- Handing text over keeps the engine, and needs one. -/
theorem send_keeps (text : String) :
    ((send engine l text).effect c).next.engine.isSome = c.engine.isSome ∧
      (((send engine l text).effect c).outcome = .ok () → c.engine.isSome = true) := by
  cases there : c.engine with
  | none =>
    rw [send, effect_of_stopped there]
    exact ⟨congrArg Option.isSome there, nofun⟩
  | some e =>
    rw [send_effect engine l there]
    exact ⟨rfl, fun _ => rfl⟩

theorem exchange_keeps (text : String) :
    ((exchange engine l text).effect c).next.engine.isSome = c.engine.isSome ∧
      (((exchange engine l text).effect c).outcome.isOk = true → c.engine.isSome = true) := by
  obtain ⟨kept, needed⟩ := send_keeps engine l (c := c) text
  cases sent : ((send engine l text).effect c).outcome with
  | error f =>
    obtain ⟨outcome, next⟩ := exchange_effect_of_unsent engine l sent
    rw [outcome, next]
    exact ⟨kept, nofun⟩
  | ok done =>
    have there := needed sent
    obtain ⟨e, running⟩ := Option.isSome_iff_exists.mp there
    refine ⟨?_, fun _ => there⟩
    rw [there]
    cases takes : engine.feed (Text.Utf8.encode text) e with
    | none =>
      rw [send_effect engine l running, takes] at sent
      cases sent
    | some e₁ =>
      obtain ⟨files, log, effect⟩ := exchange_effect engine l running takes
      rw [effect]
      split
      · rfl
      · rfl

/-- An end takes the engine away, and fails only where there is none. -/
theorem finish_ends :
    ((Transport.conversation engine l).finish c).next.engine = none ∧
      ((Transport.conversation engine l).finish c).outcome.isOk = c.engine.isSome := by
  show ((exit engine l).effect c).next.engine = none ∧
    ((exit engine l).effect c).outcome.isOk = c.engine.isSome
  cases there : c.engine with
  | none =>
    rw [exit, effect_of_stopped there]
    exact ⟨there, rfl⟩
  | some e =>
    obtain ⟨files, log, effect⟩ := exit_effect engine l there
    rw [effect]
    exact ⟨rfl, rfl⟩

/-- A start brings an engine exactly when it succeeds. -/
theorem start_brings (stopped : c.engine = none) :
    ((Transport.conversation engine l).start c).next.engine.isSome =
      ((Transport.conversation engine l).start c).outcome.isOk := by
  obtain ⟨outcome, next⟩ := start_transport engine l (c := c)
  rw [outcome, next, (start_effect engine l stopped).engine_isSome engine l stopped]
  cases ((start engine l).effect c).outcome with
  | error f => rfl
  | ok greeting => rfl

end Conversation

/-- **A conversation is a transport that is started and ended**: it runs while its engine
is there. -/
theorem Transport.conversation_lifecycle (engine : Engine ε) (l : Launch) :
    (Transport.conversation engine l).Lifecycle fun c => c.engine.isSome = true where
  started {c} stopped ok := by
    rw [Conversation.start_brings engine l (by simpa using stopped), ok]
    rfl
  notStarted {c f} stopped error := by
    rw [Conversation.start_brings engine l (by simpa using stopped), error]
    exact nofun
  ended {c text} _ := by
    rw [(Conversation.finish_ends engine l).1]
    exact nofun
  notEnded {c f} error := by
    obtain ⟨gone, fine⟩ := Conversation.finish_ends engine l (c := c)
    rw [error] at fine
    rw [gone, ← fine]
    exact Iff.rfl
  sent {wire c} ok := (Conversation.send_keeps engine l wire).2 ok
  exchanged {wire c reply} ok := by
    change ((Conversation.exchange engine l wire).effect c).outcome = .ok reply at ok
    exact (Conversation.exchange_keeps engine l wire).2 (by rw [ok]; rfl)
  sending wire c := Bool.eq_iff_iff.mp (Conversation.send_keeps engine l wire).1
  exchanging wire c := Bool.eq_iff_iff.mp (Conversation.exchange_keeps engine l wire).1
  running_of_ended {c text} ok := by
    obtain ⟨-, fine⟩ := Conversation.finish_ends engine l (c := c)
    rw [ok] at fine
    exact fine.symm

end SmtSession
