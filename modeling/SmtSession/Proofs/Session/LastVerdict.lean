import Mathlib.Data.List.Induction
import SmtSession.Proofs.Session.Account
import SmtSession.Proofs.Session.Atomicity
import SmtSession.Transport.Scripted

/-!
# The remembered verdict is never stale

**A verdict stands** behind some uses of a transport when the last check that was
acknowledged gave it and the assertions were not changed since: nothing was asserted,
no scope was opened or closed, and the engine was not reset. What failed counts
neither as a check nor as a change. `Stands` says so of the uses alone, with the
reply read as text.

`verdict_stands` is that a session remembers the verdict that stands and no other,
whichever operations went before, and answers with it when asked for its status. The
account of the acknowledgements is computed in step with `Stands`: `verdict_of`.
-/

namespace SmtSession

open Transport (Use)

/-! ## What a reply says -/

/-- A text that occurs in a list of characters is a piece of it. -/
theorem Text.occursIn_iff {needle cs : List Char} : occursIn needle cs = true ↔ needle <:+: cs := by
  induction cs with
  | nil => simp [occursIn]
  | cons c cs ih => simp [occursIn, ih, List.infix_cons_iff]

theorem Text.contains_iff {s needle : String} :
    contains s needle = true ↔ needle.toList <:+: s.toList :=
  occursIn_iff

namespace Backend

variable {b : Backend} {reply text : String} {v : Verdict}

/-- The reply is the text and the prompt behind it, or the text alone when no prompt is
at its end. -/
def Bare (b : Backend) (reply text : String) : Prop :=
  reply = text ++ b.prompt ∨ (¬ b.prompt.toList <:+ reply.toList ∧ reply = text)

/-- The text has the word for the verdict. The word for unsatisfiable goes before the
word that is part of it. -/
def HasWord (text : String) : Verdict → Prop
  | .unsat => "unsat".toList <:+: text.toList
  | .sat => "sat".toList <:+: text.toList ∧ ¬ "unsat".toList <:+: text.toList
  | .unknown => ¬ "sat".toList <:+: text.toList ∧ ¬ "unsat".toList <:+: text.toList

/-- The reply has the word for the verdict in front of its prompt. -/
def Gives (b : Backend) (reply : String) (v : Verdict) : Prop :=
  ∃ text, b.Bare reply text ∧ HasWord text v

theorem bare_withoutPrompt (b : Backend) (reply : String) :
    b.Bare reply (b.withoutPrompt reply) := by
  by_cases silent : b.prompt.isEmpty
  · have empty : b.prompt = "" := by simpa using silent
    rw [withoutPrompt, if_pos silent]
    exact .inl (by rw [empty, String.append_empty])
  rw [withoutPrompt, if_neg silent, Text.dropEnding?]
  by_cases ends : b.prompt.toList <:+ reply.toList
  · obtain ⟨front, whole⟩ := ends
    have found : b.prompt.toList.isSuffixOf reply.toList = true :=
      List.isSuffixOf_iff_suffix.mpr ⟨front, whole⟩
    rw [if_pos found, Option.getD_some, ← whole]
    refine .inl (String.toList_injective ?_)
    simp [← whole]
  · have missing : ¬ b.prompt.toList.isSuffixOf reply.toList = true :=
      fun found => ends (List.isSuffixOf_iff_suffix.mp found)
    rw [if_neg missing]
    exact .inr ⟨ends, rfl⟩

/-- There is one text in front of the prompt. -/
theorem Bare.unique {text' : String} (bare : b.Bare reply text) (bare' : b.Bare reply text') :
    text = text' := by
  rcases bare with whole | ⟨open', rfl⟩
  · rcases bare' with whole' | ⟨open', rfl⟩
    · rw [whole] at whole'
      exact (String.append_left_inj _).mp whole'
    · exact absurd ⟨text.toList, by rw [whole, String.toList_append]⟩ open'
  · rcases bare' with whole' | ⟨-, same⟩
    · exact absurd ⟨text'.toList, by rw [whole', String.toList_append]⟩ open'
    · exact same

/-- **The verdict of a reply is the one that it has the word for.** -/
theorem verdictOf_eq_iff : b.verdictOf reply = v ↔ b.Gives reply v := by
  have word_iff : b.Gives reply v ↔ HasWord (b.withoutPrompt reply) v := by
    constructor
    · rintro ⟨text, bare, word⟩
      rw [(bare_withoutPrompt b reply).unique bare]
      exact word
    · intro word
      exact ⟨_, bare_withoutPrompt b reply, word⟩
  rw [word_iff, verdictOf]
  generalize b.withoutPrompt reply = text
  cases unsat : Text.contains text "unsat" with
  | true => cases v <;> simp only [HasWord, ← Text.contains_iff, unsat] <;> simp
  | false =>
    cases sat : Text.contains text "sat" with
    | true => cases v <;> simp only [HasWord, ← Text.contains_iff, unsat, sat] <;> simp
    | false => cases v <;> simp only [HasWord, ← Text.contains_iff, unsat, sat] <;> simp

end Backend

/-! ## The verdict of the uses -/

/-- The use changes the assertions of the engine: something was asserted, a scope was
opened or closed, or all was reset, and that was acknowledged. -/
def Transport.Use.changesAssertions (b : Backend) : Use → Bool
  | .exchange wire (.ok reply) =>
    !b.reportsError reply && (Backend.isAssertion wire || wire == Backend.pushWire
      || wire == Backend.popWire || wire == Backend.resetWire)
  | _ => false

/-- The use leaves every verdict as it was. -/
def Transport.Use.keepsVerdict (b : Backend) (u : Use) : Bool :=
  !u.acknowledges b Backend.checkWire && !u.changesAssertions b

/-- The verdict stands behind the uses: a check that was acknowledged gave it, and every
use since then kept it. -/
def Stands (b : Backend) (v : Verdict) (us : List Use) : Prop :=
  ∃ past reply since, us = past ++ .exchange Backend.checkWire (.ok reply) :: since ∧
    b.reportsError reply = false ∧ b.Gives reply v ∧ ∀ u ∈ since, u.keepsVerdict b = true

namespace Stands

variable {b : Backend} {v : Verdict} {us : List Use} {u : Use}

/-- One use more is the check itself, or comes since the check and keeps the verdict. -/
theorem concat_iff : Stands b v (us ++ [u]) ↔
    (∃ reply, u = .exchange Backend.checkWire (.ok reply) ∧ b.reportsError reply = false ∧
      b.Gives reply v) ∨ (Stands b v us ∧ u.keepsVerdict b = true) := by
  constructor
  · rintro ⟨past, reply, since, whole, clean, gives, kept⟩
    rcases since.eq_nil_or_concat with rfl | ⟨since, u', rfl⟩
    · obtain ⟨-, same⟩ := List.append_inj' whole rfl
      cases same
      exact .inl ⟨reply, rfl, clean, gives⟩
    · have whole' : us ++ [u] =
          (past ++ .exchange Backend.checkWire (.ok reply) :: since) ++ [u'] := by simpa using whole
      obtain ⟨rfl, same⟩ := List.append_inj' whole' rfl
      cases same
      have before : ∀ u ∈ since, u.keepsVerdict b = true := fun u here => kept u (by simp [here])
      exact .inr ⟨⟨past, reply, since, rfl, clean, gives, before⟩, kept u (by simp)⟩
  · rintro (⟨reply, rfl, clean, gives⟩ | ⟨⟨past, reply, since, rfl, clean, gives, kept⟩, keeps⟩)
    · exact ⟨us, reply, [], rfl, clean, gives, nofun⟩
    · refine ⟨past, reply, since ++ [u], by simp, clean, gives, ?_⟩
      rw [List.forall_mem_append]
      exact ⟨kept, by simpa using keeps⟩

end Stands

namespace Account

variable {b : Backend}

/-- What an acknowledged wire makes of the verdict: a check gives a new one, a change of
the assertions takes it away. -/
theorem verdict_enter {wire reply : String} (clean : b.reportsError reply = false) (a : Account) :
    (a.enter b (.exchange wire (.ok reply))).verdict =
      if wire = Backend.checkWire then some (b.verdictOf reply)
      else if Use.changesAssertions b (.exchange wire (.ok reply)) then none
      else a.verdict := by
  by_cases check : wire = Backend.checkWire
  · rw [if_pos check, check, enter_check clean]
  rw [if_neg check]
  by_cases reset : wire = Backend.resetWire
  · simp [reset, enter_reset clean, Use.changesAssertions, clean]
  by_cases push : wire = Backend.pushWire
  · simp [push, enter_push clean, Use.changesAssertions, clean]
  by_cases pop : wire = Backend.popWire
  · simp [pop, enter_pop clean, Use.changesAssertions, clean]
  · simp only [enter, Use.changesAssertions, clean, check, reset, push, pop, Bool.false_eq_true,
      if_false]
    cases Backend.isAssertion wire with
    | true => rfl
    | false => simp [reset, push, pop]

/-- What does not acknowledge a wire leaves the verdict. -/
theorem verdict_enter_of_unacknowledged {u : Use} (a : Account)
    (un : ∀ wire reply, u = .exchange wire (.ok reply) → b.reportsError reply = true) :
    (a.enter b u).verdict = a.verdict ∧ u.keepsVerdict b = true := by
  cases u with
  | start | send | finish => exact ⟨rfl, rfl⟩
  | exchange wire outcome =>
    cases outcome with
    | error f => exact ⟨rfl, rfl⟩
    | ok reply =>
      have marked := un wire reply rfl
      simp [enter, Use.keepsVerdict, Use.acknowledges, Use.changesAssertions, marked]

/-- **The verdict of an account is the one that stands.** -/
theorem verdict_of (us : List Use) (v : Verdict) :
    (Account.of b us).verdict = some v ↔ Stands b v us := by
  induction us using List.reverseRecOn with
  | nil => exact ⟨nofun, fun ⟨_, _, _, whole, _⟩ => by simp at whole⟩
  | append_singleton us u ih =>
    rw [Stands.concat_iff, ← ih, Account.of, List.foldl_append]
    show (enter b (Account.of b us) u).verdict = _ ↔ _
    by_cases acknowledged :
        ∃ wire reply, u = .exchange wire (.ok reply) ∧ b.reportsError reply = false
    · obtain ⟨wire, reply, rfl, clean⟩ := acknowledged
      rw [verdict_enter clean]
      by_cases check : wire = Backend.checkWire
      · simp [check, clean, Backend.verdictOf_eq_iff, Use.keepsVerdict, Use.acknowledges]
      · simp [check, Use.keepsVerdict, Use.acknowledges, and_comm]
    · have un : ∀ wire reply, u = .exchange wire (.ok reply) → b.reportsError reply = true := by
        intro wire reply same
        cases marked : b.reportsError reply with
        | true => rfl
        | false => exact absurd ⟨wire, reply, same, marked⟩ acknowledged
      obtain ⟨same, keeps⟩ := verdict_enter_of_unacknowledged (Account.of b us) un
      rw [same]
      constructor
      · exact fun remembered => .inr ⟨remembered, keeps⟩
      · rintro (⟨reply, here, clean, -⟩ | ⟨remembered, -⟩)
        · exact absurd ⟨_, reply, here, clean⟩ acknowledged
        · exact remembered

end Account

namespace Session

variable {b : Backend} {setup : Setup σ} {s : Session σ}

/-! ## All reachable states -/

/-- A session that is asked for its status does not ask the engine. -/
theorem status_goes (setup : Setup σ) (s : Session σ) :
    uses setup (.getInfo ":status") s = [] ∧
      ((perform setup (.getInfo ":status")).run s).1 =
        .ok (match s.state.lastVerdict with
          | some v => .verdict v
          | none => .unsupported) := by
  have conduct := perform_uses setup (.getInfo ":status") s
  generalize uses setup (.getInfo ":status") s = us at conduct ⊢
  generalize ((perform setup (.getInfo ":status")).run s).1 = answer at conduct ⊢
  generalize ((perform setup (.getInfo ":status")).run s).2.state = behind at conduct
  cases conduct with
  | violated check => cases check
  | request is => cases is
  | infoAnswered => exact ⟨rfl, rfl⟩

/-- What it is for the verdict of a session to be fresh, when `past` is all that was done
with its transport. -/
structure VerdictFresh (setup : Setup σ) (past : List Use) (s : Session σ) : Prop where
  /-- The verdict that is remembered is the one that stands. -/
  remembered : ∀ v, s.state.lastVerdict = some v ↔ Stands setup.backend v past
  /-- The status is the verdict that stands, … -/
  answered : ∀ v, Stands setup.backend v past →
    ((perform setup (.getInfo ":status")).run s).1 = .ok (.verdict v)
  /-- … or none when none stands, … -/
  unsupported : (∀ v, ¬ Stands setup.backend v past) →
    ((perform setup (.getInfo ":status")).run s).1 = .ok .unsupported
  /-- … and no wire is handed over for it. -/
  silent : uses setup (.getInfo ":status") s = []

/-- **The remembered verdict is never stale.** Over every transport and after any
operations, a session remembers a verdict when the last acknowledged check gave it and
no change of the assertions was acknowledged since, and tells it when asked. -/
theorem verdict_fresh {transport : Transport σ} {link : σ} {bundle : Bundle}
    (made : Session.create b transport link bundle = .ok (setup, s)) (ops : List Operation) :
    VerdictFresh setup (history setup ops s) (afterAll setup ops s) := by
  obtain ⟨known, -⟩ := account_reached made ops
  have backend : setup.backend = b := by rw [(new_of_create made).1]
  have remembered (v : Verdict) : (afterAll setup ops s).state.lastVerdict = some v ↔
      Stands setup.backend v (history setup ops s) := by
    rw [backend, ← Account.verdict_of, ← known]
    rfl
  obtain ⟨silent, status⟩ := status_goes setup (afterAll setup ops s)
  refine ⟨remembered, fun v stands => ?_, fun none => ?_, silent⟩
  · rw [status, (remembered v).mpr stands]
  · cases verdict : (afterAll setup ops s).state.lastVerdict with
    | none => rw [status, verdict]
    | some v => exact absurd ((remembered v).mp verdict) (none v)

/-- A check found no model; the scope that was opened behind it took that verdict away,
although a second one failed. -/
theorem verdict_fresh_stopped_push :
    let played : Transport.Played :=
      { running := true, replies := [.ok "unsat\nyices > ", .ok "yices > ", .ok "Error yices > "] }
    ∃ setup s, Session.create Backend.yices (.scripted { name := "yices", prompt := "yices > " })
        played {} = .ok (setup, s) ∧
      VerdictFresh setup (history setup [.checkSat] s) (afterAll setup [.checkSat] s) ∧
      (afterAll setup [.checkSat] s).state.lastVerdict = some .unsat ∧
      VerdictFresh setup (history setup [.checkSat, .push 2] s)
        (afterAll setup [.checkSat, .push 2] s) ∧
      (afterAll setup [.checkSat, .push 2] s).state.lastVerdict = none := by
  intro played
  refine ⟨_, _, rfl, ?_, rfl, ?_, rfl⟩
  · exact @verdict_fresh _ Backend.yices _ _ _ _ {} rfl [.checkSat]
  · exact @verdict_fresh _ Backend.yices _ _ _ _ {} rfl [.checkSat, .push 2]

end Session

end SmtSession
