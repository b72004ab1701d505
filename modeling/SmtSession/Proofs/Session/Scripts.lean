import SmtSession.Proofs.Reader.Reads
import SmtSession.Proofs.Session.Framing
import SmtSession.Proofs.Session.Lifecycle

/-!
# One script, carried out in two ways

**A text that is carried out as it is read does what its commands do**, up to the first
that ends the session: `run_replays`. Carrying out a list of commands has another stop, at
an exit that answers with a success, and goes on behind an exit that ended the session
and answered with an error: `not_stopped_by_failed_exit`. Where no such exit is, both ways
are the same.

The two ways report different things in between. That this makes no difference is
`execute_alike`: a command does not look at the records.
-/

namespace SmtSession

open Transport (Use Over)

namespace Session

/-- One command that was carried out: its answer, and the session behind it. -/
abbrev Step (σ : Type) : Type := Command × Answer × Session σ

/-- The session behind a step is over. -/
def Step.ended (step : Step σ) : Bool :=
  step.2.2.state.terminated

/-- The steps up to the first that ends the session. -/
def untilEnded : List (Step σ) → List (Step σ)
  | [] => []
  | step :: steps => step :: if step.ended then [] else untilEnded steps

/-- The session behind some steps. -/
def sessionBehind (s : Session σ) (steps : List (Step σ)) : Session σ :=
  steps.foldl (fun _ step => step.2.2) s

/-- What is printed of an answer: nothing for a success that the options silence, and
nothing for a command with no response. -/
def printed (s : State) : Answer → List String
  | .error _ => []
  | .ok r =>
    if r.kind = .success ∧ s.options.get? ":print-success" = some "false" then [] else [r.text]

/-- What is printed of a step. -/
def Step.printed (step : Step σ) : List String :=
  Session.printed step.2.2.state step.2.1

/-- How a run of some steps ends: with the first command that has no response. -/
def endOf : List (Step σ) → RunEnd
  | [] => .completed
  | step :: steps =>
    match step.2.1 with
    | .error part => .noResponse part
    | .ok _ => endOf steps

/-! ## What is reported makes no difference -/

/-- The sessions are the same but for what was reported. -/
structure Alike (s s' : Session σ) : Prop where
  state : s.state = s'.state
  link : s.link = s'.link

theorem Alike.refl (s : Session σ) : Alike s s :=
  ⟨rfl, rfl⟩

theorem Alike.symm {s s' : Session σ} (alike : Alike s s') : Alike s' s :=
  ⟨alike.state.symm, alike.link.symm⟩

theorem Alike.trans {s₁ s₂ s₃ : Session σ} (first : Alike s₁ s₂) (next : Alike s₂ s₃) :
    Alike s₁ s₃ :=
  ⟨first.state.trans next.state, first.link.trans next.link⟩

/-- Every session is one without records, behind its records. -/
theorem image_unreported (s : Session σ) :
    (⟨s.state, s.link, []⟩ : Session σ).image id s.log = s := by
  rw [image, List.append_nil]
  rfl

/-- A command cannot look at the memory of its transport, nor at the records. -/
theorem lifts_execute {f : τ → σ} {t : Transport τ} {earlier : List Log.Record} (setup : Setup σ)
    (image : Over f t setup.transport) (c : Command) :
    Lifts f id earlier (execute (setup.withTransport t) c) (execute setup c) := by
  unfold execute
  cases c.operation? with
  | some op => exact lifts_perform setup image op fun _ => rfl
  | none => exact (lifts_record _ _).bind fun _ => .of_pure _

/-- A command does not look at the records. -/
theorem execute_image (setup : Setup σ) (c : Command) (earlier : List Log.Record)
    (s : Session σ) :
    (execute setup c).run (s.image id earlier) =
      (((execute setup c).run s).1, ((execute setup c).run s).2.image id earlier) :=
  lifts_execute setup (Transport.self_over setup.transport) c s

/-- **What was reported makes no difference** to a command. -/
theorem execute_alike (setup : Setup σ) (c : Command) {s s' : Session σ} (alike : Alike s s') :
    ((execute setup c).run s).1 = ((execute setup c).run s').1 ∧
      Alike ((execute setup c).run s).2 ((execute setup c).run s').2 := by
  have here := execute_image setup c s.log ⟨s.state, s.link, []⟩
  have there := execute_image setup c s'.log ⟨s'.state, s'.link, []⟩
  rw [image_unreported] at here there
  rw [here, there, alike.state, alike.link]
  exact ⟨rfl, rfl, rfl⟩

/-- Reporting prints a response, and changes the records only. -/
theorem report_run (r : Response) (s : Session σ) :
    ((report r).run s).1 = printed s.state (.ok r) ∧ Alike ((report r).run s).2 s := by
  let quietly : Prop := r.kind = .success ∧ s.state.options.get? ":print-success" = some "false"
  rw [report, StateT.run_bind, printed]
  change ((if quietly then _ else _ : Act σ (List String)).run s).1 = _ ∧
    Alike ((if quietly then _ else _ : Act σ (List String)).run s).2 s
  by_cases quiet : quietly
  · rw [if_pos quiet, if_pos quiet]
    exact ⟨rfl, rfl, rfl⟩
  · rw [if_neg quiet, if_neg quiet]
    cases r.isError with
    | false => exact ⟨rfl, rfl, rfl⟩
    | true =>
      cases r.pos with
      | none => exact ⟨rfl, rfl, rfl⟩
      | some pos => exact ⟨rfl, rfl, rfl⟩

/-- An exit that answers with a success has ended the session. -/
theorem ended_of_isLast (setup : Setup σ) (c : Command) (s : Session σ)
    (last : isLast c ((execute setup c).run s).1 = true) :
    ((execute setup c).run s).2.state.terminated = true := by
  cases c with
  | exit =>
    obtain ⟨sent, ended, -, state, r, answer, success⟩ := (perform_uses setup .exit s).of_exit
    have run : (execute setup .exit).run s = (perform setup .exit).run s := rfl
    rw [run] at last ⊢
    rw [answer] at last
    obtain ⟨-, trailing, returned, -⟩ := success.mp last
    rw [state, returned]
    rfl
  | _ => cases last

/-- The steps up to the end of the session, from the first command on: an exit with a
success is one of those that end it. -/
theorem untilEnded_executeAll (setup : Setup σ) (c : Command) (cs : List Command)
    (s : Session σ) :
    untilEnded (executeAll setup (c :: cs) s) =
      (c, (execute setup c).run s) ::
        if ((execute setup c).run s).2.state.terminated || !((execute setup c).run s).1.isOk then []
        else untilEnded (executeAll setup cs ((execute setup c).run s).2) := by
  have last := ended_of_isLast setup c s
  rw [executeAll]
  generalize (execute setup c).run s = executed at last ⊢
  obtain ⟨answer, behind⟩ := executed
  dsimp only at last ⊢
  rw [untilEnded, Step.ended]
  congr 1
  cases closed : behind.state.terminated with
  | true => rfl
  | false =>
    cases answer.isOk with
    | false => simp [untilEnded]
    | true =>
      have goes_on : isLast c answer = false := by
        by_contra is
        rw [last (by simpa using is)] at closed
        cases closed
      simp [goes_on]

/-! ## The two ways -/

/-- A run replays some steps from a session: it prints what they print, ends as they end,
and leaves what they leave, but for what was reported. -/
structure Replays (steps : List (Step σ)) (s : Session σ)
    (ran : (List String × RunEnd) × Session σ) : Prop where
  lines : ran.1.1 = steps.flatMap Step.printed
  ending : ran.1.2 = endOf steps
  behind : Alike ran.2 (sessionBehind s steps)

section

variable (setup : Setup σ) {bound : Nat} {script : Script} {left : List Token} {c : Command}
  (found : Reader.command? script.input script.pending = .done (some c) left)
  {s behind : Session σ}

include found

/-- A script stops at a command without a response. -/
theorem runFrom_run_of_error {part : Dialect.Part}
    (executed : (execute setup c).run s = (.error part, behind)) :
    (runFrom setup (bound + 1) script).run s = (([], .noResponse part), behind) := by
  rw [runFrom, Script.next, found]
  dsimp only
  rw [StateT.run_bind, executed]
  rfl

/-- A script goes on behind a command, unless that has ended the session. -/
theorem runFrom_run_of_ok {r : Response} (executed : (execute setup c).run s = (.ok r, behind)) :
    (runFrom setup (bound + 1) script).run s =
      if ((report r).run behind).2.state.terminated then
        ((((report r).run behind).1, .completed), ((report r).run behind).2)
      else
        let ran := (runFrom setup bound ⟨script.input, left⟩).run ((report r).run behind).2
        ((((report r).run behind).1 ++ ran.1.1, ran.1.2), ran.2) := by
  rw [runFrom, Script.next, found]
  dsimp only
  rw [StateT.run_bind, executed]
  exact apply_ite
    (fun ran : Act σ (List String × RunEnd) => ran.run ((report r).run behind).2) _ _ _

end

/-- **Reading and carrying out go in step**: what is left to read is what is left to carry
out. -/
theorem runFrom_replays (setup : Setup σ) {bound : Nat} {script : Script} {cs : List Command}
    {rest : List Token}
    (reads : Reader.commands bound script.input script.pending = .done cs rest)
    {s s' : Session σ} (alike : Alike s s') :
    Replays (untilEnded (executeAll setup cs s')) s' ((runFrom setup bound script).run s) := by
  induction bound generalizing script cs s s' with
  | zero =>
    cases reads
    exact ⟨rfl, rfl, alike⟩
  | succ bound ih =>
    cases found : Reader.command? script.input script.pending with
    | failed e left =>
      rw [Reader.commands, Reader.bind_of_failed found] at reads
      cases reads
    | done next left =>
      rw [Reader.commands, Reader.bind_of_done found] at reads
      cases next with
      | none =>
        cases reads
        have ran : (runFrom setup (bound + 1) script).run s = (([], .completed), s) := by
          rw [runFrom, Script.next, found]
          rfl
        rw [ran]
        exact ⟨rfl, rfl, alike⟩
      | some c =>
        dsimp only at reads
        cases later : Reader.commands bound script.input left with
        | failed e rest' =>
          rw [Reader.bind_of_failed later] at reads
          cases reads
        | done cs' rest' =>
          rw [Reader.bind_of_done later] at reads
          cases reads
          obtain ⟨same, alike'⟩ := execute_alike setup c alike
          rw [untilEnded_executeAll]
          cases executed : (execute setup c).run s with
          | mk answer behind =>
            rw [executed] at same alike'
            generalize (execute setup c).run s' = executed' at same alike' ⊢
            obtain ⟨answer', behind'⟩ := executed'
            cases same
            dsimp only at alike' ⊢
            cases answer with
            | error part =>
              have stops :
                  (behind'.state.terminated || !(Except.error part : Answer).isOk) = true :=
                Bool.or_true _
              rw [runFrom_run_of_error setup found executed, if_pos stops]
              exact ⟨rfl, rfl, alike'⟩
            | ok r =>
              obtain ⟨lines, quiet⟩ := report_run r behind
              rw [alike'.state] at lines
              have alike'' := quiet.trans alike'
              rw [runFrom_run_of_ok setup found executed, lines, alike''.state]
              cases closed : behind'.state.terminated with
              | true => exact ⟨(List.append_nil _).symm, rfl, alike''⟩
              | false =>
                let behind_it : Script := ⟨script.input, left⟩
                have later : Reader.commands bound behind_it.input behind_it.pending = _ := later
                have replays := ih later alike''
                exact ⟨congrArg (printed behind'.state (.ok r) ++ ·) replays.lines,
                  replays.ending, replays.behind⟩

/-- What it is for the two ways to carry out a script to agree, from a session, up to the
first command that ends the session. -/
structure Agree (setup : Setup σ) (source : Source) (cs : List Command) (s : Session σ) :
    Prop where
  /-- The same responses are printed, and the same state and memory left. -/
  replays : Replays (untilEnded (executeAll setup cs s)) s ((run setup source).run s)
  /-- The same uses of the transport are made. -/
  uses : ((run setup.watched source).run (s.watch [])).2.link.2 =
    (sessionBehind (s.watch [])
      (untilEnded (executeAll setup.watched cs (s.watch [])))).link.2
  /-- Those steps are all, when only exits with a success end the session. -/
  whole : (∀ step ∈ executeAll setup cs s, Step.ended step = true → isLast step.1 step.2.1 = true) →
    untilEnded (executeAll setup cs s) = executeAll setup cs s

/-- Where only exits with a success end the session, nothing is carried out behind its
end. -/
theorem untilEnded_eq_self (setup : Setup σ) (cs : List Command) {s : Session σ}
    (only : ∀ step ∈ executeAll setup cs s,
      Step.ended step = true → isLast step.1 step.2.1 = true) :
    untilEnded (executeAll setup cs s) = executeAll setup cs s := by
  induction cs generalizing s with
  | nil => rfl
  | cons c cs ih =>
    rw [executeAll] at only ⊢
    generalize (execute setup c).run s = executed at only ⊢
    obtain ⟨answer, behind⟩ := executed
    dsimp only at only ⊢
    obtain ⟨here, later⟩ := List.forall_mem_cons.mp only
    rw [untilEnded]
    congr 1
    by_cases closed : Step.ended (c, answer, behind) = true
    · rw [if_pos closed, here closed]
      rfl
    · rw [if_neg closed]
      split at later
      · next stop => rw [if_pos stop]; rfl
      · next more => rw [if_neg more]; exact ih later

/-- **A text that is carried out as it is read does what its commands do** up to the first
that ends the session, over every transport and whatever the engine answers. -/
theorem run_agrees {source : Source} {cs : List Command} (read : readScript source = .ok cs)
    (setup : Setup σ) (s : Session σ) : Agree setup source cs s := by
  have reads : Reader.commands (source.tokenize.list.length + 1)
      ⟨source, source.tokenize.ending⟩ source.tokenize.list = .done cs [] :=
    (Reader.done_of_readAll read).1
  exact ⟨runFrom_replays setup reads ⟨rfl, rfl⟩,
    congrArg (·.2) (runFrom_replays setup.watched reads ⟨rfl, rfl⟩).behind.link,
    untilEnded_eq_self setup cs⟩

/-- A session with an engine that has an error for its last word. -/
def Setup.rude : Setup Transport.Played :=
  ⟨.yices, .scripted { name := "yices", prompt := "yices > ", farewell := "Error: bye" },
    false, false⟩

/-- A script of two commands behind which the session goes on. -/
theorem run_agrees_check_behind_push :
    let source : Source := ⟨"(push 1)(check-sat)", none⟩
    ∃ cs, readScript source = .ok cs ∧ Agree .rude source cs .agreed ∧
      ((run .rude source).run .agreed).1.1 = ["success", "unknown"] := by
  intro source
  have printed : (readScript source).toOption.map
      (fun _ => ((run .rude source).run .agreed).1.1) = some ["success", "unknown"] := by
    decide +kernel
  obtain ⟨cs, read, lines⟩ := exists_of_readScript printed
  exact ⟨cs, read, run_agrees read .rude .agreed, lines⟩

/-- **An exit that ended the session with an error does not stop the other way.** -/
theorem not_stopped_by_failed_exit :
    ¬ ∀ (source : Source) (cs : List Command), readScript source = .ok cs →
      ∀ (setup : Setup Transport.Played) (s : Session Transport.Played),
        s.state.started = true → s.state.terminated = false →
        ((run setup source).run s).1.1 = (executeAll setup cs s).flatMap Step.printed := by
  intro agree
  let source : Source := ⟨"(exit)(check-sat)", none⟩
  have printed : (readScript source).toOption.map (fun cs =>
      (((run .rude source).run .agreed).1.1.length,
        ((executeAll .rude cs .agreed).flatMap Step.printed).length)) = some (1, 2) := by
    decide +kernel
  obtain ⟨cs, read, lengths⟩ := exists_of_readScript printed
  have same := congrArg List.length (agree source cs read .rude .agreed rfl rfl)
  simp only [Prod.mk.injEq] at lengths
  omega

end Session

end SmtSession
