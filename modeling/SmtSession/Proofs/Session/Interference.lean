import SmtSession.Proofs.Session.Answers
import SmtSession.Proofs.Session.Scripts

/-!
# Commands that leave no trace

**A command that only reads is not noticed by the others**: `noninterference`. When
commands that ask for options or information, and commands without an effect, are deleted
from a sequence, all others are answered as before, the same is sent to the engine, and
the session ends in the same state. Commands that set information are noticed by those
that ask for it, and by nobody else.

Both are one induction over the sequence, `Unnoticed.run`, for two relations between the
session of the whole run and that of the run with commands deleted: they are the same but
for the records, or the same but for the records and the information. It does not matter
where a run stops, as long as it is not at a deleted command.
-/

namespace SmtSession

open Transport (Use)

/-! ## Commands -/

/-- The command is answered without the engine, and changes nothing. -/
def Command.readsOnly : Command → Bool
  | .getInfo _ | .getOption _ | .echo _ | .getModel | .getAssertions | .reset
  | .resetAssertions => true
  | _ => false

def Command.setsInfo : Command → Bool
  | .setInfo _ _ => true
  | _ => false

def Command.asksInfo : Command → Bool
  | .getInfo _ => true
  | _ => false

theorem Command.readsOnly_of_asksInfo {c : Command} (asks : c.asksInfo = true) :
    c.readsOnly = true := by
  cases c with
  | getInfo => rfl
  | _ => cases asks

/-! ## Deleted places -/

/-- What is left of a list when some places are deleted. -/
def remaining (gone : Nat → Bool) : List α → List α
  | [] => []
  | a :: as =>
    if gone 0 then remaining (fun i => gone (i + 1)) as
    else a :: remaining (fun i => gone (i + 1)) as

/-- What stands at a deleted place has the property. -/
def DeletesOnly (P : α → Prop) (gone : Nat → Bool) (as : List α) : Prop :=
  ∀ i a, as[i]? = some a → gone i = true → P a

theorem DeletesOnly.tail {P : α → Prop} {gone : Nat → Bool} {a : α} {as : List α}
    (deletes : DeletesOnly P gone (a :: as)) : DeletesOnly P (fun i => gone (i + 1)) as :=
  fun i b is => deletes (i + 1) b is

/-- The states are the same but for the information. -/
def State.SameButInfo (s s' : State) : Prop :=
  ∃ info, s = { s' with info := info }

namespace Session

/-! ## Runs that stop anywhere -/

/-- Carries out commands in order, up to the first that stops the run with its answer. -/
def stepsUntil (setup : Setup σ) (stops : Command → Answer → Bool) :
    List Command → Session σ → List (Step σ)
  | [], _ => []
  | c :: cs, s =>
    (c, (execute setup c).run s) ::
      if stops c ((execute setup c).run s).1 then []
      else stepsUntil setup stops cs ((execute setup c).run s).2

/-- Carries out all commands in order. -/
def executeEach (setup : Setup σ) : List Command → Session σ → List (Step σ) :=
  stepsUntil setup fun _ _ => false

/-- A script stops at a successful exit, and at a command without a response. -/
def stopsScript (c : Command) (answer : Answer) : Bool :=
  isLast c answer || !answer.isOk

theorem executeAll_eq :
    @executeAll = fun {τ} (setup : Setup τ) => stepsUntil setup stopsScript := by
  funext τ setup cs s
  induction cs generalizing s with
  | nil => rfl
  | cons c cs ih =>
    rw [stepsUntil, ← ih]
    rfl

/-! ## One induction over two runs -/

/-- The sessions have related states, and the same memory of the transport. -/
structure Linked (Kept : State → State → Prop) (s s' : Session σ) : Prop where
  state : Kept s.state s'.state
  link : s.link = s'.link

section

variable {setup : Setup σ} {stops : Command → Answer → Bool} {P : Command → Prop}
  {Kept : State → State → Prop} {Same : Command → Answer → Answer → Prop}

/-- What it is for commands to go unnoticed in a run: one of them does not stop it and
keeps the relation to a session, and any other command keeps the relation between two. -/
structure Unnoticed (setup : Setup σ) (stops : Command → Answer → Bool) (P : Command → Prop)
    (Kept : State → State → Prop) (Same : Command → Answer → Answer → Prop) : Prop where
  deleted : ∀ {c s s'}, P c → Linked Kept s s' →
    stops c ((execute setup c).run s).1 = false ∧ Linked Kept ((execute setup c).run s).2 s'
  remaining : ∀ {c s s'}, Linked Kept s s' →
    Same c ((execute setup c).run s).1 ((execute setup c).run s').1 ∧
      Linked Kept ((execute setup c).run s).2 ((execute setup c).run s').2 ∧
      stops c ((execute setup c).run s).1 = stops c ((execute setup c).run s').1

/-- The steps are of the same command, with related answers. -/
def Step.Matches (Same : Command → Answer → Answer → Prop) (step step' : Step σ) : Prop :=
  step.1 = step'.1 ∧ Same step.1 step.2.1 step'.2.1

/-- **What goes unnoticed can be deleted**: the other commands have related answers, and the
sessions behind both runs are related. -/
theorem Unnoticed.run (unnoticed : Unnoticed setup stops P Kept Same) {cs : List Command}
    {gone : Nat → Bool} (deletes : DeletesOnly P gone cs) {s s' : Session σ}
    (linked : Linked Kept s s') :
    let whole := stepsUntil setup stops cs s
    let rest := stepsUntil setup stops (SmtSession.remaining gone cs) s'
    List.Forall₂ (Step.Matches Same) (SmtSession.remaining gone whole) rest ∧
      Linked Kept (sessionBehind s whole) (sessionBehind s' rest) := by
  induction cs generalizing gone s s' with
  | nil => exact ⟨.nil, linked⟩
  | cons c cs ih =>
    dsimp only
    rw [stepsUntil, SmtSession.remaining, SmtSession.remaining]
    by_cases here : gone 0 = true
    · -- The command is carried out in the one run only.
      obtain ⟨goes_on, linked'⟩ := unnoticed.deleted (deletes 0 c rfl here) linked
      rw [if_pos here, if_pos here, goes_on]
      exact ih deletes.tail linked'
    · obtain ⟨same, linked', stop⟩ := unnoticed.remaining (c := c) linked
      rw [if_neg here, if_neg here, stepsUntil, ← stop]
      cases stops c ((execute setup c).run s).1 with
      | true => exact ⟨.cons ⟨rfl, same⟩ .nil, linked'⟩
      | false =>
        obtain ⟨matching, behind⟩ := ih deletes.tail linked'
        exact ⟨.cons ⟨rfl, same⟩ matching, behind⟩

end

/-- What it is for a run of a sequence not to be disturbed when some places are deleted:
the other commands have related answers, the states in the end are related, and the same
use is made of the transport. -/
structure Undisturbed (Same : Command → Answer → Answer → Prop) (Kept : State → State → Prop)
    (run : {τ : Type} → Setup τ → List Command → Session τ → List (Step τ)) (setup : Setup σ)
    (cs : List Command) (gone : Nat → Bool) (s : Session σ) : Prop where
  answers : List.Forall₂ (Step.Matches Same) (remaining gone (run setup cs s))
    (run setup (remaining gone cs) s)
  state : Kept (sessionBehind s (run setup cs s)).state
    (sessionBehind s (run setup (remaining gone cs) s)).state
  uses : (sessionBehind (s.watch []) (run setup.watched cs (s.watch []))).link.2 =
    (sessionBehind (s.watch []) (run setup.watched (remaining gone cs) (s.watch []))).link.2

theorem undisturbed_of_unnoticed {stops : Command → Answer → Bool} {P : Command → Prop}
    {Kept : State → State → Prop} {Same : Command → Answer → Answer → Prop}
    {setup : Setup σ} (here : Unnoticed setup stops P Kept Same)
    (watched : Unnoticed setup.watched stops P Kept Same) {cs : List Command}
    {gone : Nat → Bool} (deletes : DeletesOnly P gone cs) (s : Session σ)
    (refl : Kept s.state s.state) :
    Undisturbed Same Kept (fun setup => stepsUntil setup stops) setup cs gone s := by
  have self : Linked Kept s s := ⟨refl, rfl⟩
  obtain ⟨answers, behind⟩ := here.run deletes self
  have same : Linked Kept (s.watch []) (s.watch []) := ⟨refl, rfl⟩
  obtain ⟨-, behind_watched⟩ := watched.run deletes same
  exact ⟨answers, behind.state, congrArg (·.2) behind_watched.link⟩

/-! ## Commands that only read -/

/-- What is asked of the session is answered, and leaves everything as it was. -/
theorem Conduct.of_asked {b : Backend} {relaxed : Bool} {s s' : State} {op : Operation}
    {us : List Use} {answer : Answer} (conduct : Conduct b relaxed s op us answer s')
    (asks : (∃ key, op = .getOption key) ∨ ∃ key, op = .getInfo key) :
    us = [] ∧ (∃ r, answer = .ok r) ∧ s' = s := by
  obtain ⟨key, rfl⟩ | ⟨key, rfl⟩ := asks
  · cases conduct with
    | violated check => cases check
    | request is => cases is
    | optionAnswered => exact ⟨rfl, ⟨_, rfl⟩, rfl⟩
  · cases conduct with
    | violated check => cases check
    | request is => cases is
    | infoAnswered => exact ⟨rfl, ⟨_, rfl⟩, rfl⟩

theorem perform_asked (setup : Setup σ) {op : Operation}
    (asks : (∃ key, op = .getOption key) ∨ ∃ key, op = .getInfo key) (s : Session σ) :
    (∃ r, ((perform setup op).run s).1 = .ok r) ∧ Alike ((perform setup op).run s).2 s := by
  obtain ⟨us, ran, conduct⟩ := perform_conduct setup op s
  obtain ⟨rfl, answered, state⟩ := conduct.of_asked asks
  exact ⟨answered, state, ran.of_nil⟩

/-- A command that only reads has a response, and changes the records at most. -/
theorem execute_readsOnly (setup : Setup σ) {c : Command} (reads : c.readsOnly = true)
    (s : Session σ) :
    (∃ r, ((execute setup c).run s).1 = .ok r) ∧ Alike ((execute setup c).run s).2 s := by
  cases c with
  | getOption key => exact perform_asked setup (.inl ⟨_, rfl⟩) s
  | getInfo key => exact perform_asked setup (.inr ⟨_, rfl⟩) s
  | echo | getModel | getAssertions | reset | resetAssertions => exact ⟨⟨_, rfl⟩, rfl, rfl⟩
  | _ => cases reads

/-- A run that never stops at a command that only reads does not notice such commands. -/
theorem unnoticed_readsOnly (setup : Setup σ) {stops : Command → Answer → Bool}
    (quiet : ∀ c r, c.readsOnly = true → stops c (.ok r) = false) :
    Unnoticed setup stops (·.readsOnly = true) (· = ·)
      fun _ answer answer' => answer = answer' where
  deleted {c s s'} reads linked := by
    obtain ⟨⟨r, answered⟩, alike⟩ := execute_readsOnly setup reads s
    rw [answered]
    exact ⟨quiet c r reads, alike.state.trans linked.state, alike.link.trans linked.link⟩
  remaining {c s s'} linked := by
    obtain ⟨same, alike⟩ := execute_alike setup c ⟨linked.state, linked.link⟩
    exact ⟨same, ⟨alike.state, alike.link⟩, congrArg (stops c) same⟩

/-! ## Commands that set information -/

/-- The operation of a command that neither sets nor asks for information does not either. -/
theorem isInfo_of_command {c : Command} {op : Operation} (sets : c.setsInfo = false)
    (asks : c.asksInfo = false) (is : c.operation? = some op) : op.isInfo = false := by
  cases c with
  | setInfo => cases sets
  | getInfo => cases asks
  | echo | getModel | getAssertions | reset | resetAssertions | other => cases is
  | _ =>
    cases is
    rfl

/-- Such a command cannot look at the information. -/
theorem execute_mapInfo (setup : Setup σ) (g : Table → Table) {c : Command}
    (sets : c.setsInfo = false) (asks : c.asksInfo = false) (s : Session σ) :
    (execute setup c).run (s.mapInfo g) =
      (((execute setup c).run s).1, ((execute setup c).run s).2.mapInfo g) := by
  unfold execute
  cases is : c.operation? with
  | none => rfl
  | some op => exact perform_mapInfo setup g (isInfo_of_command sets asks is) s

/-- Information is set in the same way, whatever the session. -/
theorem execute_setInfo (setup : Setup σ) {c : Command} (sets : c.setsInfo = true) :
    ∃ answer g, ∀ s, (execute setup c).run s = (answer, s.mapInfo g) := by
  cases c with
  | setInfo key value =>
    show ∃ answer g, ∀ s, (setInfo key value).run s = (answer, s.mapInfo g)
    unfold setInfo
    split
    · exact ⟨_, id, fun s => rfl⟩
    · split
      · exact ⟨_, id, fun s => rfl⟩
      · exact ⟨_, id, fun s => rfl⟩
      · exact ⟨_, (Table.set · key.name _), fun s => rfl⟩
  | _ => cases sets

/-- Setting information keeps sessions the same but for that. -/
theorem sameButInfo_mapInfo {s s' : State} (same : s.SameButInfo s') (g h : Table → Table) :
    (s.mapInfo g).SameButInfo (s'.mapInfo h) := by
  obtain ⟨info, rfl⟩ := same
  exact ⟨g info, rfl⟩

/-- **The information is looked at by those that ask for it only.** -/
theorem execute_sameButInfo (setup : Setup σ) (c : Command) {s s' : Session σ}
    (linked : Linked State.SameButInfo s s') :
    (c.asksInfo = false → ((execute setup c).run s).1 = ((execute setup c).run s').1) ∧
      Linked State.SameButInfo ((execute setup c).run s).2 ((execute setup c).run s').2 := by
  cases asks : c.asksInfo with
  | true =>
    have reads := Command.readsOnly_of_asksInfo asks
    have here := (execute_readsOnly setup reads s).2
    have there := (execute_readsOnly setup reads s').2
    refine ⟨nofun, ?_, here.link.trans (linked.link.trans there.link.symm)⟩
    rw [here.state, there.state]
    exact linked.state
  | false =>
    cases sets : c.setsInfo with
    | true =>
      obtain ⟨answer, g, run⟩ := execute_setInfo setup sets
      rw [run, run]
      exact ⟨fun _ => rfl, sameButInfo_mapInfo linked.state g g, linked.link⟩
    | false =>
      -- The one session is the other with its own information.
      obtain ⟨info, state⟩ := linked.state
      have alike : Alike s (s'.mapInfo fun _ => info) := ⟨state, linked.link⟩
      obtain ⟨answers, behind⟩ := execute_alike setup c alike
      rw [execute_mapInfo setup _ sets asks] at answers behind
      exact ⟨fun _ => answers, ⟨info, behind.state⟩, behind.link⟩

/-- A run that never stops at a command that only reads, nor at the deleted ones that set
information, does not notice but for the information. -/
theorem unnoticed_info (setup : Setup σ) {stops : Command → Answer → Bool} {P : Command → Prop}
    (kinds : ∀ c, P c → c.readsOnly = true ∨ c.setsInfo = true)
    (quiet : ∀ c r, c.readsOnly = true → stops c (.ok r) = false)
    (passes : ∀ c s, P c → c.setsInfo = true → stops c ((execute setup c).run s).1 = false) :
    Unnoticed setup stops P State.SameButInfo
      fun c answer answer' => c.asksInfo = false → answer = answer' where
  deleted {c s s'} is linked := by
    obtain reads | sets := kinds c is
    · obtain ⟨⟨r, answered⟩, alike⟩ := execute_readsOnly setup reads s
      rw [answered]
      refine ⟨quiet c r reads, ?_, alike.link.trans linked.link⟩
      rw [alike.state]
      exact linked.state
    · refine ⟨passes c s is sets, ?_⟩
      obtain ⟨answer, g, run⟩ := execute_setInfo setup sets
      rw [run]
      exact ⟨sameButInfo_mapInfo linked.state g id, linked.link⟩
  remaining {c s s'} linked := by
    obtain ⟨same, linked'⟩ := execute_sameButInfo setup c linked
    refine ⟨same, linked', ?_⟩
    cases asks : c.asksInfo with
    | false => rw [same asks]
    | true =>
      have reads := Command.readsOnly_of_asksInfo asks
      obtain ⟨⟨r, here⟩, -⟩ := execute_readsOnly setup reads s
      obtain ⟨⟨r', there⟩, -⟩ := execute_readsOnly setup reads s'
      rw [here, there, quiet c r reads, quiet c r' reads]

/-! ## All sequences -/

/-- A script does not stop at a command that has a response and is no exit. -/
theorem stopsScript_readsOnly (c : Command) (r : Response) (reads : c.readsOnly = true) :
    stopsScript c (.ok r) = false := by
  cases c with
  | exit => cases reads
  | _ => rfl

/-- Nor does it at a proper command that sets information. -/
theorem stopsScript_setInfo (setup : Setup σ) {c : Command} (proper : c.Proper)
    (sets : c.setsInfo = true) (s : Session σ) :
    stopsScript c ((execute setup c).run s).1 = false := by
  cases c with
  | setInfo key value =>
    obtain ⟨r, answer, -⟩ := (answered_of_proper setup proper s).response _ rfl
    rw [answer]
    rfl
  | _ => cases sets

/-- Nothing changes for the other commands. -/
abbrev Unchanged (run : {τ : Type} → Setup τ → List Command → Session τ → List (Step τ))
    (setup : Setup σ) (cs : List Command) (gone : Nat → Bool) (s : Session σ) : Prop :=
  Undisturbed (fun _ answer answer' => answer = answer') (· = ·) run setup cs gone s

/-- Nothing changes for the other commands but the information in the end, and the answers
to those that ask for it. -/
abbrev UnchangedButInfo (run : {τ : Type} → Setup τ → List Command → Session τ → List (Step τ))
    (setup : Setup σ) (cs : List Command) (gone : Nat → Bool) (s : Session σ) : Prop :=
  Undisturbed (fun c answer answer' => c.asksInfo = false → answer = answer') State.SameButInfo
    run setup cs gone s

/-- What it is for a sequence of commands not to notice that some are deleted, whether all
are carried out or up to the end of a script. -/
structure Noninterference (setup : Setup σ) (cs : List Command) (gone : Nat → Bool)
    (s : Session σ) : Prop where
  reading : DeletesOnly (·.readsOnly = true) gone cs →
    Unchanged @executeEach setup cs gone s ∧ Unchanged @executeAll setup cs gone s
  info : UnchangedButInfo @executeEach setup cs gone s
  /-- A script ends at a value with a node out of place. -/
  infoScript : DeletesOnly Command.Proper gone cs → UnchangedButInfo @executeAll setup cs gone s
  /-- No script that was read has such a value. -/
  infoRead : ∀ source, readScript source = .ok cs → UnchangedButInfo @executeAll setup cs gone s

/-- A script whose deleted commands are proper does not notice but for the information. -/
theorem unchangedButInfo_script (setup : Setup σ) (s : Session σ) {cs : List Command}
    {gone : Nat → Bool}
    (deletes : DeletesOnly (fun c => c.readsOnly = true ∨ c.setsInfo = true) gone cs)
    (proper : DeletesOnly Command.Proper gone cs) :
    UnchangedButInfo @executeAll setup cs gone s := by
  have both : DeletesOnly (fun c => (c.readsOnly = true ∨ c.setsInfo = true) ∧ c.Proper) gone cs :=
    fun i c is here => ⟨deletes i c is here, proper i c is here⟩
  rw [UnchangedButInfo, executeAll_eq]
  exact undisturbed_of_unnoticed
    (unnoticed_info setup (fun _ is => is.1) stopsScript_readsOnly fun _ s is sets =>
      stopsScript_setInfo setup is.2 sets s)
    (unnoticed_info setup.watched (fun _ is => is.1) stopsScript_readsOnly fun _ s is sets =>
      stopsScript_setInfo setup.watched is.2 sets s)
    both s ⟨s.state.info, rfl⟩

/-- **Commands that only read or set information do not interfere** with the others, from
every session and over every transport. -/
theorem noninterference (setup : Setup σ) (s : Session σ) {cs : List Command}
    {gone : Nat → Bool}
    (deletes : DeletesOnly (fun c => c.readsOnly = true ∨ c.setsInfo = true) gone cs) :
    Noninterference setup cs gone s := by
  refine ⟨fun reading => ⟨?each, ?script⟩, ?info, ?infoScript, ?infoRead⟩
  case each =>
    exact undisturbed_of_unnoticed (unnoticed_readsOnly setup fun _ _ _ => rfl)
      (unnoticed_readsOnly setup.watched fun _ _ _ => rfl) reading s rfl
  case script =>
    rw [Unchanged, executeAll_eq]
    exact undisturbed_of_unnoticed (unnoticed_readsOnly setup stopsScript_readsOnly)
      (unnoticed_readsOnly setup.watched stopsScript_readsOnly) reading s rfl
  case info =>
    exact undisturbed_of_unnoticed
      (unnoticed_info setup (fun _ is => is) (fun _ _ _ => rfl) fun _ _ _ _ => rfl)
      (unnoticed_info setup.watched (fun _ is => is) (fun _ _ _ => rfl) fun _ _ _ _ => rfl)
      deletes s ⟨s.state.info, rfl⟩
  case infoScript => exact unchangedButInfo_script setup s deletes
  case infoRead =>
    intro source read
    refine unchangedButInfo_script setup s deletes fun i c is _ => ?_
    exact proper_of_readScript read c (List.mem_of_getElem? is)

/-- A sequence that asks, sets information and asks again, without its first three places. -/
theorem noninterference_status :
    let cs : List Command :=
      [.getInfo ⟨":status", none⟩, .setInfo ⟨":source", none⟩ (.term (.numeral 1 none)), .reset,
        .push 1, .checkSat, .getInfo ⟨":source", none⟩]
    let gone := fun i => decide (i < 3)
    DeletesOnly (fun c => c.readsOnly = true ∨ c.setsInfo = true) gone cs ∧
      (remaining gone cs).length = 3 ∧
      Noninterference .agreeable cs gone .agreed ∧
      (sessionBehind .agreed (executeAll .agreeable cs .agreed)).state.scopeDepth = 1 := by
  intro cs gone
  have deletes : DeletesOnly (fun c => c.readsOnly = true ∨ c.setsInfo = true) gone cs := by
    intro i c is here
    match i with
    | 0 | 2 =>
      cases is
      exact .inl rfl
    | 1 =>
      cases is
      exact .inr rfl
    | i + 3 =>
      have few : i + 3 < 3 := of_decide_eq_true here
      omega
  exact ⟨deletes, rfl, noninterference .agreeable .agreed deletes, by decide +kernel⟩

end Session

end SmtSession
