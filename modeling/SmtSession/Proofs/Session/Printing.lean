import Mathlib.Data.List.Basic
import SmtSession.Proofs.Session.Answers
import SmtSession.Proofs.Session.Composition

/-!
# What a run prints

**A run prints one line for each command that it carries out**, in their order, and one more for
the error that stops it, if one does. `CarriedOut` says which commands these are, each with its
answer and the session behind it: they are read one by one, up to the end of the text, to one that
cannot be read, or to one that ends the session.

The option `:print-success` silences successes from the command on that turns it off, up to the
command that turns it on. There is one success that it does not silence: an exit that ends the
session answers with a kind of its own (`kind_success_iff`), and is printed whatever the option is.
-/

namespace SmtSession

namespace Session

/-! ## The kinds of successes -/

/-- A request answers with the kind of exits for no reply. -/
theorem kind_respond {b : Backend} {op : Operation} {r : Request} (is : op.request? b = some r)
    (reply : String) : (r.respond reply).kind ≠ .exit := by
  cases op <;> cases is <;> nofun

theorem Failure.kind_response {b : Backend} {command : String} {pos : Option Pos}
    (failure : Failure) : (failure.response b command pos).kind = .error := by
  cases failure <;> rfl

theorem kind_scopesResponse {b : Backend} {command : String} {count : Int} {acknowledged : Nat}
    (failure : Option Failure) :
    (scopesResponse b command count acknowledged failure).kind ≠ .exit := by
  have other : Response.Kind.error ≠ .exit := by decide
  cases failure with
  | none => exact nofun
  | some failure =>
    rw [scopesResponse]
    split
    · rw [failure.kind_response]
      exact other
    · exact other

theorem kind_information (b : Backend) (s : State) (key : String) :
    (information b s key).kind ≠ .exit := by
  unfold information
  split
  · nofun
  · split <;> nofun
  · nofun
  · nofun
  · nofun
  · split <;> nofun

section

variable {b : Backend} {relaxed : Bool} {s s' : State} {op : Operation}
  {us : List Transport.Use} {r : Response}

/-- **No other operation answers like an exit.** -/
theorem Conduct.kind_ne_exit (conduct : Conduct b relaxed s op us (.ok r) s') (other : op ≠ .exit) :
    r.kind ≠ .exit := by
  have of_carried {request : Request} (kind : ∀ reply, (request.respond reply).kind ≠ .exit)
      (carried : Carried b request s us (.ok r) s') : r.kind ≠ .exit := by
    cases carried with
    | refused | failed =>
      rw [Failure.kind_response]
      nofun
    | unsent => exact kind _
    | acknowledged => exact kind _
  cases conduct with
  | request is carried => exact of_carried (kind_respond is) carried
  | logicReset check fixed carried =>
    exact of_carried (fun _ => show Response.Kind.success ≠ .exit by nofun) carried
  | notEnded | endedUnsent | endedWithError | ended => exact absurd rfl other
  | pushed | popped => exact kind_scopesResponse _
  | optionAnswered => split <;> exact nofun
  | infoAnswered => exact kind_information _ _ _
  | violated | started | notStarted | logicSet | optionRefused | optionSet | infoRefused
  | infoSet => nofun

/-- An exit that succeeds says so in its own way. -/
theorem Conduct.kind_of_exit (conduct : Conduct b relaxed s .exit us (.ok r) s') :
    r.kind ≠ .success := by
  cases conduct with
  | violated check => cases check
  | request is => cases is
  | notEnded | endedUnsent =>
    rw [Failure.kind_response]
    nofun
  | endedWithError | ended => nofun

end

/-- **The successes of the kind that is silenced** are those of all commands but an exit. -/
theorem kind_success_iff (setup : Setup σ) {c : Command} {s : Session σ} {r : Response}
    (answer : ((execute setup c).run s).1 = .ok r) :
    r.kind = .success ↔ r.isOk = true ∧ isLast c (.ok r) = false := by
  cases is : c.operation? with
  | none =>
    have unsupported : ((execute setup c).run s).1 = .ok .unsupported := by
      rw [execute, is]
      rfl
    rw [answer] at unsupported
    cases unsupported
    simp [Response.unsupported, Response.isOk]
  | some op =>
    have run : (execute setup c).run s = (perform setup op).run s := by rw [execute, is]
    have conduct := perform_uses setup op s
    rw [← run, answer] at conduct
    by_cases last : op = .exit
    · subst last
      have exits : c = .exit := by
        cases c <;> cases is
        rfl
      have other := conduct.kind_of_exit
      subst exits
      simp [isLast, other]
    · have other := conduct.kind_ne_exit last
      have goes_on : isLast c (.ok r) = false := by
        cases c with
        | exit => exact absurd (Option.some.inj is).symm last
        | _ => rfl
      simp [goes_on, Response.isOk, other]

/-! ## The commands that are carried out -/

/-- **A script is carried out** from a session: the steps, and the error that stops it. -/
inductive CarriedOut (setup : Setup σ) :
    Script → Session σ → List (Step σ) → Option Reader.Error → Prop
  /-- The text is at its end. -/
  | ended {script : Script} {s : Session σ} (none : script.next.1 = .ok none) :
      CarriedOut setup script s [] .none
  /-- A command cannot be read. -/
  | stopped {script : Script} {s : Session σ} {e : Reader.Error}
      (refused : script.next.1 = .error e) : CarriedOut setup script s [] (some e)
  /-- A command ends the session. -/
  | last {script : Script} {s : Session σ} {c : Command}
      (read : script.next.1 = .ok (some c))
      (ends : ((execute setup c).run s).2.state.terminated = true) :
      CarriedOut setup script s [(c, (execute setup c).run s)] .none
  | step {script : Script} {s : Session σ} {c : Command} {steps : List (Step σ)}
      {e? : Option Reader.Error} (read : script.next.1 = .ok (some c))
      (goes_on : ((execute setup c).run s).2.state.terminated = false)
      (more : CarriedOut setup script.next.2 ((execute setup c).run s).2 steps e?) :
      CarriedOut setup script s ((c, (execute setup c).run s) :: steps) e?

/-- The steps of a script, and the error that stops it. The bound is more than the number of
tokens left. -/
def stepsFrom (setup : Setup σ) : Nat → Script → Session σ → List (Step σ) × Option Reader.Error
  | 0, _, _ => ([], none)
  | bound + 1, script, s =>
    match script.next with
    | (.error e, _) => ([], some e)
    | (.ok none, _) => ([], none)
    | (.ok (some c), rest) =>
      let step : Step σ := (c, (execute setup c).run s)
      if step.ended then
        ([step], none)
      else
        let (steps, e?) := stepsFrom setup bound rest step.2.2
        (step :: steps, e?)

/-- The steps of a source, and the error that stops it. -/
def stepsIn (setup : Setup σ) (source : Source) (s : Session σ) :
    List (Step σ) × Option Reader.Error :=
  let script := Script.ofSource source
  stepsFrom setup (script.pending.length + 1) script s

/-- **The steps of a script are the commands that are carried out**, when the bound is more than
the number of tokens. -/
theorem stepsFrom_carriedOut (setup : Setup σ) {bound : Nat} {script : Script}
    (enough : script.pending.length < bound) (s : Session σ) :
    CarriedOut setup script s (stepsFrom setup bound script s).1
      (stepsFrom setup bound script s).2 := by
  induction bound generalizing script s with
  | zero => exact absurd enough (Nat.not_lt_zero _)
  | succ bound ih =>
    rw [stepsFrom]
    cases next : script.next with
    | mk found rest =>
      cases found with
      | error e => exact .stopped (by rw [next])
      | ok c? =>
        cases c? with
        | none => exact .ended (by rw [next])
        | some c =>
          have read : script.next.1 = .ok (some c) := by rw [next]
          have shorter := Reader.length_lt_of_command (Script.command_of_next read).1
          rw [next] at shorter
          dsimp only at shorter ⊢
          by_cases ends : Step.ended (c, (execute setup c).run s) = true
          · rw [if_pos ends]
            exact .last read ends
          · rw [if_neg ends]
            have more := @ih rest (by omega) ((execute setup c).run s).2
            exact .step read (by simpa [Step.ended] using ends) (by rw [next]; exact more)

/-! ## What is printed of them -/

/-- The lines of the error that stops a script. -/
def errorLines (e? : Option Reader.Error) : List String :=
  e?.toList.map fun e => (readErrorResponse e).text

/-- How a script ends that an error stops, or nothing. -/
def stopOf (e? : Option Reader.Error) : RunEnd :=
  if e?.isSome then .malformed else .completed

section

variable (setup : Setup σ) {script : Script} {c : Command}

/-- **A run prints what its steps print**, and then the error that stops it. -/
theorem CarriedOut.printed {s s' : Session σ} {steps : List (Step σ)} {e? : Option Reader.Error}
    (carried : CarriedOut setup script s' steps e?) {bound : Nat}
    (enough : script.pending.length ≤ bound) (alike : Alike s s') :
    ((runLeaving setup (bound + 1) script).run s).1.1 =
        (steps.flatMap Step.printed ++ errorLines e?, stopOf e?) ∧
      Alike ((runLeaving setup (bound + 1) script).run s).2 (sessionBehind s' steps) := by
  induction carried generalizing bound s with
  | ended none =>
    have ran := runLeaving_none setup (s := s) (Script.command_of_next none).1 bound
    rw [show (runLeaving setup (bound + 1) _).run s = _ from ran]
    exact ⟨rfl, alike⟩
  | stopped refused =>
    obtain ⟨quiet, like, ran⟩ :=
      runLeaving_failed setup (s := s) (Script.failed_of_next refused).1 bound
    rw [show (runLeaving setup (bound + 1) _).run s = _ from ran]
    exact ⟨rfl, like.trans alike⟩
  | last read ends =>
    obtain ⟨quiet, like, ran⟩ := runLeaving_step setup read alike bound
    rw [ran, if_pos ends]
    exact ⟨by simp [errorLines, stopOf], like⟩
  | @step script _ _ _ _ read goes_on _ ih =>
    have shorter := Reader.length_lt_of_command (Script.command_of_next read).1
    obtain ⟨bound, rfl⟩ : ∃ n, bound = n + 1 := ⟨bound - 1, by omega⟩
    obtain ⟨quiet, like, ran⟩ := runLeaving_step setup read alike (bound + 1)
    have left : script.next.2.pending.length ≤ bound := by omega
    obtain ⟨result, behind⟩ := ih left like
    rw [ran, if_neg (by rw [goes_on]; nofun)]
    refine ⟨?_, behind⟩
    rw [Ran.behind, result, List.flatMap_cons, List.append_assoc]

/-- Every step is a command that was carried out and has a response. -/
theorem CarriedOut.answered {s : Session σ} {steps : List (Step σ)} {e? : Option Reader.Error}
    (carried : CarriedOut setup script s steps e?) {step : Step σ} (is : step ∈ steps) :
    ∃ c s' r, step = (c, (execute setup c).run s') ∧ step.2.1 = .ok r := by
  induction carried with
  | ended | stopped => cases is
  | last read ends =>
    obtain ⟨r, answer⟩ := exists_response setup (Command.proper_of_next read) _
    rw [List.mem_singleton.mp is]
    exact ⟨_, _, r, rfl, answer⟩
  | step read goes_on _ ih =>
    rcases List.mem_cons.mp is with rfl | is
    · obtain ⟨r, answer⟩ := exists_response setup (Command.proper_of_next read) _
      exact ⟨_, _, r, rfl, answer⟩
    · exact ih is

/-- An exit that succeeds is the last step, and no error comes behind it. -/
theorem CarriedOut.last_of_isLast {s : Session σ} {steps : List (Step σ)}
    {e? : Option Reader.Error} (carried : CarriedOut setup script s steps e?)
    {front back : List (Step σ)} {step : Step σ} (split : steps = front ++ step :: back)
    (exits : isLast step.1 step.2.1 = true) : back = [] ∧ e? = none := by
  induction carried generalizing front with
  | ended | stopped => simp at split
  | last read ends =>
    cases front with
    | nil => exact ⟨(List.cons.inj split).2.symm, rfl⟩
    | cons first front => simp at split
  | step read goes_on _ ih =>
    cases front with
    | nil =>
      obtain ⟨rfl, -⟩ := List.cons.inj split
      have ends := ended_of_isLast setup _ _ exits
      rw [goes_on] at ends
      cases ends
    | cons first front => exact ih (List.cons.inj split).2

end

/-! ## Successes that are not printed -/

/-- The lines of a step. There are none for a success that is hidden while the option
`:print-success` is off behind the command. -/
def Step.linesBut (hidden : Command → Answer → Bool) (step : Step σ) : List String :=
  match step.2.1 with
  | .error _ => []
  | .ok r =>
    if r.isOk = true ∧ hidden step.1 step.2.1 = true ∧
        step.2.2.state.options.get? ":print-success" = some "false" then []
    else [r.text]

/-- What is printed of a command that was carried out. -/
theorem printed_eq (setup : Setup σ) {c : Command} {s : Session σ} {r : Response}
    (answer : ((execute setup c).run s).1 = .ok r) :
    Step.printed (c, (execute setup c).run s) =
      Step.linesBut (fun c answer => !isLast c answer) (c, (execute setup c).run s) := by
  have kind := kind_success_iff setup answer
  simp only [Step.printed, Step.linesBut, Session.printed, answer, kind, and_assoc,
    Bool.not_eq_true']

/-- What it is for a run to print the responses to its commands, in a session. -/
structure Prints (setup : Setup σ) (source : Source) (s : Session σ)
    (steps : List (Step σ)) (e? : Option Reader.Error) : Prop where
  carried : CarriedOut setup (Script.ofSource source) s steps e?
  answered : ∀ step ∈ steps, ∃ r, step.2.1 = .ok r
  /-- There is one line for each command, in order, and one for the error that stops the run. A
  success has none while the option is off behind its command, unless that is an exit. -/
  lines : ((run setup source).run s).1 =
    (steps.flatMap (Step.linesBut fun c answer => !isLast c answer) ++ errorLines e?, stopOf e?)
  /-- Such an exit is the last command. -/
  last : ∀ front step back, steps = front ++ step :: back → isLast step.1 step.2.1 = true →
    back = [] ∧ e? = none
  /-- The run leaves what the last command leaves, but for what was reported. -/
  behind : Alike ((run setup source).run s).2 (sessionBehind s steps)

/-- **A run prints one response for each command that it carries out**, and one error if that stops
it, over every transport and from every session; but for successes while `:print-success` is off,
of which only that of an exit is printed. -/
theorem run_prints (setup : Setup σ) (source : Source) (s : Session σ) :
    Prints setup source s (stepsIn setup source s).1 (stepsIn setup source s).2 := by
  have carried : CarriedOut setup (Script.ofSource source) s _ _ :=
    stepsFrom_carriedOut setup (Nat.lt_succ_self _) s
  obtain ⟨result, behind⟩ := carried.printed setup (Nat.le_refl _) (Alike.refl s)
  have lines : (stepsIn setup source s).1.flatMap Step.printed =
      (stepsIn setup source s).1.flatMap (Step.linesBut fun c answer => !isLast c answer) := by
    refine List.flatMap_congr fun step is => ?_
    obtain ⟨c, s', r, rfl, answer⟩ := carried.answered setup is
    exact printed_eq setup answer
  refine ⟨carried, fun step is => ?_, ?_, fun _ _ _ => carried.last_of_isLast setup, ?_⟩
  · obtain ⟨-, -, r, -, answer⟩ := carried.answered setup is
    exact ⟨r, answer⟩
  · rw [run_eq, ← lines]
    exact result
  · rw [run_eq]
    exact behind

/-- **An exit is not silenced**: its success is printed while the option is off. -/
theorem not_silent_at_exit :
    ¬ ∀ (source : Source) (setup : Setup Transport.Played) (s : Session Transport.Played),
      setup.backend = .yices → s.state.started = true → s.state.terminated = false →
        ((run setup source).run s).1.1 =
          (stepsIn setup source s).1.flatMap (Step.linesBut fun _ _ => true) ++
            errorLines (stepsIn setup source s).2 := by
  intro silent
  let source : Source := ⟨"(set-option :print-success false)\n(exit)", none⟩
  have printed : ((run .agreeable source).run .agreed).1.1 = ["success"] := by decide +kernel
  have hidden : (stepsIn .agreeable source .agreed).1.flatMap (Step.linesBut fun _ _ => true) ++
      errorLines (stepsIn .agreeable source .agreed).2 = [] := by decide +kernel
  have same := silent source .agreeable .agreed rfl rfl rfl
  rw [printed, hidden] at same
  cases same

end Session

end SmtSession
