import SmtSession.Proofs.Dialect.Placed
import SmtSession.Proofs.Reader.TakenTerms
import SmtSession.Proofs.Session.Atomicity
import SmtSession.Proofs.Session.Framing

/-!
# Every command of a text is answered

**A command that was read from a text has a response**, in every session and over every
transport: `answered_of_read`. The response is an error exactly when the command was
refused, by a rule or by the dialect, or when a use of the transport failed.

The one way to have no response is a node out of place in a term of the command. What
spells a term has no such node (`Term.proper_of_spelled`), and what is read is what is
spelled.
-/

namespace SmtSession

open Dialect (Placed)
open Transport (Use)

/-! ## Commands without a node out of place -/

/-- No term of the command has a node out of place. -/
def Command.Proper : Command → Prop
  | .assert term => term.Proper
  | .defineFun _ _ _ body => body.Proper
  | .getValue terms => Term.ProperAll terms
  | .setOption _ (.term value) => value.Proper
  | .setInfo _ (.term value) => value.Proper
  | _ => True

namespace Session

theorem refusalOf_placed {r : Except Dialect.Error α} (placed : Placed r) (part : Dialect.Part) :
    refusalOf r ≠ some (.misplaced part) := by
  cases r with
  | ok a => nofun
  | error e =>
    rintro ⟨⟩
    exact placed part rfl

end Session

theorem Setting.text_placed {value : Setting} (proper : ∀ t, value = .term t → t.Proper) :
    Placed value.text := by
  cases value with
  | term t => exact Term.settingText_placed (proper t rfl)
  | absent | flag | number | verbatim => exact .ok _

open Session (refusalOf_placed)

/-- **The payload of a proper command is spelled or refused**, for every backend. -/
theorem Command.refusal_placed (b : Backend) {c : Command} (proper : c.Proper)
    {op : Session.Operation} (is : c.operation? = some op) (part : Dialect.Part) :
    op.refusal? b ≠ some (.misplaced part) := by
  cases c with
  | assert t =>
    cases is
    exact refusalOf_placed (b.assertWire_placed proper).map part
  | getValue ts =>
    cases is
    exact refusalOf_placed (b.valueWire_placed proper).map part
  | defineFun name parameters result body =>
    cases is
    exact refusalOf_placed
      (b.ifDefinitions_placed (b.defineWire_placed name parameters result proper)) part
  | declareFun name args result =>
    cases is
    exact refusalOf_placed (b.declareWire_placed name args result).map part
  | declareConst name sort =>
    cases is
    exact refusalOf_placed (b.declareWire_placed name [] sort).map part
  | declareSort name arity =>
    cases is
    exact refusalOf_placed (b.ifDefinitions_placed (b.declareSortWire_placed name arity)) part
  | defineSort name parameters definition =>
    cases is
    exact refusalOf_placed
      (b.ifDefinitions_placed (b.defineSortWire_placed name _ definition)) part
  | setOption key value | setInfo key value =>
    cases is
    refine refusalOf_placed (Setting.text_placed ?_) part
    rintro t rfl
    exact proper
  | checkSat | getProof | getUnsatCore | getAssignment | setLogic | getOption | getInfo | push
  | pop | exit =>
    cases is
    nofun
  | echo | getModel | getAssertions | reset | resetAssertions | other => cases is

/-! ## What is read is proper -/

namespace Term

mutual

/-- **What spells a term makes it proper.** -/
theorem proper_of_spelled : (t : Term) → {ls : List Lexeme} → t.Spelled ls → t.Proper
  | .numeral _ _, _, _ | .decimal _ _, _, _ | .hex _ _, _, _ | .binary _ _, _, _
  | .string _ _, _, _ | .symbol _, _, _ | .keyword _, _, _ | .qualified _ _ _, _, _
  | .indexed _ _ _, _, _ | .error _ _, _, _ => trivial
  | .apply _ args _, _, ⟨identifier, _, _, _, _, all⟩ =>
    ⟨identifier, properAll_of_spelled args all⟩
  | .quantified _ _ body _, _, ⟨_, _, _, _, _, spelled⟩ => proper_of_spelled body spelled
  | .letIn bindings body _, _, ⟨_, _, _, _, bound, spelled⟩ =>
    ⟨properBindings_of_spelled bindings bound, proper_of_spelled body spelled⟩
  | .attributed term _ _, _, ⟨_, _, _, _, spelled, _⟩ => proper_of_spelled term spelled
  | .sort _, _, spelled | .declaration _, _, spelled | .binding _, _, spelled
  | .attr _, _, spelled => absurd spelled id

theorem properAll_of_spelled : (ts : List Term) → {ls : List Lexeme} → AllSpelled ts ls →
    ProperAll ts
  | [], _, _ => trivial
  | t :: ts, _, ⟨_, _, _, spelled, more⟩ =>
    ⟨proper_of_spelled t spelled, properAll_of_spelled ts more⟩

theorem properBindings_of_spelled : (bs : List Binding) → {ls : List Lexeme} →
    BindingsSpelled bs ls → ProperBindings bs
  | [], _, _ => trivial
  | .mk _ t :: bs, _, ⟨_, _, _, _, _, spelled, more⟩ =>
    ⟨proper_of_spelled t spelled, properBindings_of_spelled bs more⟩

end

end Term

/-- The value of an option or of information is proper, also when it is a word that is
reserved. -/
theorem Term.proper_of_settingSpelled {t : Term} {ls : List Lexeme}
    (spelled : (Setting.term t).Spelled ls) : t.Proper := by
  obtain spelled | word := spelled
  · exact t.proper_of_spelled spelled
  · cases t with
    | symbol => trivial
    | _ => cases word

/-- What spells a command makes it proper. -/
theorem Command.proper_of_spelled {c : Command} {ls : List Lexeme} (spelled : c.Spelled ls) :
    c.Proper := by
  obtain ⟨_, -, spelled⟩ := spelled
  cases c with
  | assert t => exact t.proper_of_spelled spelled
  | defineFun name parameters result body =>
    obtain ⟨_, _, _, _, -, -, -, -, spelled⟩ := spelled
    exact body.proper_of_spelled spelled
  | getValue terms =>
    obtain ⟨-, _, -, all⟩ := spelled
    exact Term.properAll_of_spelled terms all
  | setOption key value =>
    cases value with
    | term t =>
      obtain ⟨_, _, -, -, spelled⟩ := spelled
      exact Term.proper_of_settingSpelled spelled
    | _ => trivial
  | setInfo key value =>
    cases value with
    | term t =>
      obtain ⟨_, _, -, -, spelled⟩ := spelled
      exact Term.proper_of_settingSpelled spelled
    | _ => trivial
  | _ => trivial

/-- A command that is read is proper, wherever the reading of its text has come to. -/
theorem Command.proper_of_next {script : Script} {c : Command}
    (read : script.next.1 = .ok (some c)) : c.Proper := by
  obtain ⟨_, -, spelled⟩ := Reader.Takes.command? _ _ _ (Script.command_of_next read).1
  exact proper_of_spelled spelled

/-- **Every command of a text is proper.** -/
theorem proper_of_readScript {source : Source} {cs : List Command}
    (read : readScript source = .ok cs) : ∀ c ∈ cs, c.Proper := by
  obtain ⟨done, -⟩ := Reader.done_of_readAll read
  obtain ⟨taken, -, spelled⟩ := Reader.Takes.script _ _ _ done
  exact spelled.forall_mem (fun _ _ spelled _ => Command.proper_of_spelled spelled)
    fun _ _ => trivial

/-! ## Responses -/

/-- The use failed: the transport has a fault, or the engine reports an error. -/
def Transport.Use.failed (b : Backend) : Use → Bool
  | .start (.ok _) | .send _ (.ok _) => false
  | .exchange _ (.ok reply) | .finish (.ok reply) => b.reportsError reply
  | .start (.error _) | .send _ (.error _) | .exchange _ (.error _) | .finish (.error _) => true

namespace Session

section

variable {b : Backend} {relaxed : Bool} {s s' : State} {op : Operation} {us : List Use}
  {answer : Answer}

/-- An exchange that does not acknowledge its wire failed. -/
theorem failed_of_reading {wire : String} {outcome : Except Fault String} {failure : Failure}
    (read : reading b outcome = .error failure) : (Use.exchange wire outcome).failed b = true := by
  cases outcome with
  | error f => rfl
  | ok reply =>
    cases marked : b.reportsError reply with
    | true => exact marked
    | false =>
      rw [reading_of_clean marked] at read
      cases read

/-- A row has a failure exactly when a use of it failed. -/
theorem Row.failed_iff {wire : String} {n acknowledged : Nat} {failure : Option Failure}
    (row : Row b wire n us acknowledged failure) :
    failure.isSome = true ↔ ∃ u ∈ us, u.failed b = true := by
  induction row with
  | done => simp
  | stopped read => simp [failed_of_reading read]
  | went read rest ih => simp [ih, Use.failed, read]

/-- What used the transport answers with an error exactly when a use failed. -/
theorem Conduct.failed_iff (conduct : Conduct b relaxed s op us answer s') (used : us ≠ []) :
    ∃ r, answer = .ok r ∧ (r.isError = true ↔ ∃ u ∈ us, u.failed b = true) := by
  have of_carried {r : Request} (clean : ∀ reply, (r.respond reply).isError = false)
      (carried : Carried b r s us answer s') :
      ∃ r, answer = .ok r ∧ (r.isError = true ↔ ∃ u ∈ us, u.failed b = true) := by
    cases carried with
    | misplaced | refused | unsent => exact absurd rfl used
    | failed spelled read =>
      exact ⟨_, rfl, by simp [isError_response, failed_of_reading read]⟩
    | acknowledged spelled read => exact ⟨_, rfl, by simp [clean, Use.failed, read]⟩
  cases conduct with
  | request is carried => exact of_carried (isError_respond is) carried
  | logicReset check fixed carried => exact of_carried (fun _ => rfl) carried
  | started => exact ⟨_, rfl, by simp [Response.isError, Response.success, Use.failed]⟩
  | notStarted => exact ⟨_, rfl, by simp [Response.isError, Response.error, Use.failed]⟩
  | notEnded => exact ⟨_, rfl, by simp [isError_response, Use.failed]⟩
  | endedUnsent => exact ⟨_, rfl, by simp [isError_response, Use.failed]⟩
  | endedWithError error =>
    exact ⟨_, rfl, by simp [Response.isError, Response.error, Use.failed, error]⟩
  | ended clean =>
    exact ⟨_, rfl, by simp [Response.isError, Response.successExit, Use.failed, clean]⟩
  | pushed check row | popped check row =>
    exact ⟨_, rfl, by rw [isError_scopesResponse, row.failed_iff]⟩
  | violated | logicSet | optionMisplaced | optionRefused | optionSet | infoMisplaced | infoRefused
  | infoSet | optionAnswered | infoAnswered => exact absurd rfl used

/-- An operation without a response has a node out of place. -/
theorem Conduct.of_unanswered {part : Dialect.Part}
    (conduct : Conduct b relaxed s op us (.error part) s') :
    op.refusal? b = some (.misplaced part) := by
  cases conduct with
  | request is carried =>
    cases carried with
    | misplaced wire => rw [refusal?_of_request is, wire, refusalOf]
  | logicReset check fixed carried =>
    cases carried with
    | misplaced wire => cases wire
  | optionMisplaced text => rw [Operation.refusal?, text, refusalOf]
  | infoMisplaced check text => rw [Operation.refusal?, text, refusalOf]

/-- **An operation whose payload is in place is answered**, with an error exactly when it
was refused or a use of the transport failed. -/
theorem Conduct.answered (conduct : Conduct b relaxed s op us answer s')
    (placed : ∀ part, op.refusal? b ≠ some (.misplaced part)) :
    ∃ r, answer = .ok r ∧
      (r.isError = true ↔ op.Refused b relaxed s ∨ ∃ u ∈ us, u.failed b = true) := by
  have atomic := conduct.atomic
  cases used : us with
  | cons u more =>
    obtain ⟨r, same, failed⟩ := conduct.failed_iff (by simp [used])
    refine ⟨r, same, ?_⟩
    rw [← used, failed]
    refine ⟨.inr, ?_⟩
    rintro (refused | failed)
    · rw [(atomic.refused refused).2.1] at used
      cases used
    · exact failed
  | nil =>
    cases answer with
    | error part => exact absurd conduct.of_unanswered (placed part)
    | ok r =>
      refine ⟨r, rfl, fun error => .inl (atomic.unused r rfl error used), ?_⟩
      rintro (refused | ⟨u, is, -⟩)
      · obtain ⟨⟨_, ⟨⟩, error⟩, -⟩ := atomic.refused refused
        exact error
      · cases is

end

/-- What it is for a command to be answered in a session. -/
structure Answered (setup : Setup σ) (c : Command) (s : Session σ) : Prop where
  /-- Nothing is out of place where the dialect looks. -/
  placed : ∀ op, c.operation? = some op →
    ∀ part, op.refusal? setup.backend ≠ some (.misplaced part)
  /-- A command without an operation is unsupported. -/
  unsupported : c.operation? = none → ((execute setup c).run s).1 = .ok .unsupported
  /-- Any other has a response, which is an error exactly when something failed. -/
  response : ∀ op, c.operation? = some op → ∃ r, ((execute setup c).run s).1 = .ok r ∧
    (r.isError = true ↔ op.Refused setup.backend setup.relaxed s.state ∨
      ∃ u ∈ uses setup op s, u.failed setup.backend = true)

/-- A proper command is answered. -/
theorem answered_of_proper (setup : Setup σ) {c : Command} (proper : c.Proper) (s : Session σ) :
    Answered setup c s where
  placed op is := Command.refusal_placed setup.backend proper is
  unsupported none := by
    simp only [execute, none]
    rfl
  response op is := by
    simp only [execute, is]
    exact (perform_uses setup op s).answered (Command.refusal_placed setup.backend proper is)

/-- **Every command of a text is answered**, wherever the reading of the text has come to,
in every session and over every transport. -/
theorem answered_of_read {script : Script} {c : Command} (read : script.next.1 = .ok (some c))
    (setup : Setup σ) (s : Session σ) : Answered setup c s :=
  answered_of_proper setup (Command.proper_of_next read) s

/-- A question for two values, one of which the dialect refuses, is answered. -/
theorem answered_of_read_values :
    let script := Script.ofSource ⟨"(get-value ((! x :note sat) (let ((y 1.5)) y)))", none⟩
    ∃ c, script.next.1 = .ok (some c) ∧ Answered .agreeable c .agreed ∧
      ((execute .agreeable c).run .agreed).1.toOption.map Response.isError = some true := by
  intro script
  have answer : script.next.1.toOption.map (fun c? => c?.bind fun c =>
      ((execute .agreeable c).run .agreed).1.toOption.map Response.isError) =
        some (some true) := by decide +kernel
  cases read : script.next.1 with
  | error e =>
    rw [read] at answer
    cases answer
  | ok c? =>
    rw [read] at answer
    cases c? with
    | none => cases answer
    | some c => exact ⟨c, rfl, answered_of_read read .agreeable .agreed, Option.some.inj answer⟩

end Session

end SmtSession
