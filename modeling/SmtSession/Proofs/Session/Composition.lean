import SmtSession.Program
import SmtSession.Proofs.Reader.Commands
import SmtSession.Proofs.Reader.Joined
import SmtSession.Proofs.Session.Answers
import SmtSession.Proofs.Session.Positions

/-!
# Running one text behind another

**Running a script composes**: `run_composes`. A text on the line behind a script that was
read to its end is carried out as if it stood alone, from the session that the script has
left, with the same wires, the same lines and the same end; unless the script has ended the
session, for then nothing of the text is read.

The commands of the script are read in front of any tokens (`Continues`, one induction over
the commands), and what is left is the text at another place, which no reader sees
(`runLeaving_alike`). What is behind the first command that cannot be read is not looked at
either, so such a command is one error and nothing else: `runLeaving_fails`.
-/

namespace SmtSession

open Transport (Use Over)
open Reader (Same length_lt_of_command)

/-- The script gives these commands, one each time it is asked, and then an error. -/
def Script.FailsBehind : List Command → Reader.Error → Script → Prop
  | [], e, s => s.next.1 = .error e
  | c :: cs, e, s => s.next.1 = .ok (some c) ∧ FailsBehind cs e s.next.2

namespace Session

variable (setup : Setup σ)

/-! ## Single commands -/

/-- A command that was read is proper. -/
theorem proper_of_command {input : Reader.Input} {ts left : List Token} {c : Command}
    (found : Reader.command? input ts = .done (some c) left) : c.Proper := by
  have read : (Script.mk input ts).next.1 = .ok (some c) := by rw [Script.next, found]
  exact Command.proper_of_next read

/-- A proper command has a response. -/
theorem exists_response {c : Command} (proper : c.Proper) (s : Session σ) :
    ∃ r, ((execute setup c).run s).1 = .ok r := by
  have answered := answered_of_proper setup proper s
  cases is : c.operation? with
  | none => exact ⟨_, answered.unsupported is⟩
  | some op =>
    obtain ⟨r, answer, -⟩ := answered.response op is
    exact ⟨r, answer⟩

/-- An answer that is the same as a response, but for the range that is blamed, is one. -/
theorem response_of_bare {answer : Answer} {r : Response}
    (same : bareAnswer answer = bareAnswer (.ok r)) : ∃ r', answer = .ok r' := by
  cases answer with
  | error part => cases same
  | ok r' => exact ⟨r', rfl⟩

/-! ## A run, with what it leaves to read -/

/-- What a run comes to: the lines, how it ended, the script that is left, and the session. -/
abbrev Ran (σ : Type) : Type := ((List String × RunEnd) × Script) × Session σ

/-- The same with more lines in front. -/
def Ran.behind (lines : List String) (ran : Ran σ) : Ran σ :=
  (((lines ++ ran.1.1.1, ran.1.1.2), ran.1.2), ran.2)

theorem Ran.behind_behind (lines more : List String) (ran : Ran σ) :
    (ran.behind more).behind lines = ran.behind (lines ++ more) := by
  simp only [behind, List.append_assoc]

/-- Both runs print the same lines and end in the same way, in sessions that are the same but
for what was reported. -/
structure Ran.Alike (ran ran' : Ran σ) : Prop where
  result : ran.1.1 = ran'.1.1
  session : Session.Alike ran.2 ran'.2

theorem Ran.Alike.behind {ran ran' : Ran σ} (alike : ran.Alike ran') (lines : List String) :
    Ran.Alike (ran.behind lines) (ran'.behind lines) :=
  ⟨by rw [Ran.behind, Ran.behind, alike.result], alike.session⟩

/-- The same run as `runFrom`, with the script as it is left: what is still to be read when
the run stops. -/
def runLeaving : Nat → Script → Act σ ((List String × RunEnd) × Script)
  | 0, script => return (([], .completed), script)
  | bound + 1, script => do
    match script.next with
    | (.error e, rest) => return ((← report (readErrorResponse e), .malformed), rest)
    | (.ok none, rest) => return (([], .completed), rest)
    | (.ok (some c), rest) =>
      match ← execute setup c with
      | .error part => return (([], .noResponse part), rest)
      | .ok response =>
        let lines ← report response
        if (← get).state.terminated then
          return ((lines, .completed), rest)
        else
          let ((more, runEnd), left) ← runLeaving bound rest
          return ((lines ++ more, runEnd), left)

/-- What a run of a source comes to. -/
def ranOf (source : Source) (s : Session σ) : Ran σ :=
  let script := Script.ofSource source
  (runLeaving setup (script.pending.length + 1) script).run s

theorem runFrom_eq (bound : Nat) (script : Script) :
    runFrom setup bound script = Prod.fst <$> runLeaving setup bound script := by
  induction bound generalizing script with
  | zero => rfl
  | succ bound ih =>
    rw [runFrom, runLeaving]
    obtain ⟨found, rest⟩ := script.next
    cases found with
    | error e => simp only [map_bind, map_pure]
    | ok c? =>
      cases c? with
      | none => rfl
      | some c =>
        dsimp only
        rw [map_bind]
        congr 1
        funext answer
        cases answer with
        | error part => rfl
        | ok r =>
          simp only [map_bind, apply_ite (Prod.fst <$> ·), map_pure, ih, bind_map_left]

/-- The lines and the end of a run, and the session behind it, are what the run comes to. -/
theorem run_eq (source : Source) (s : Session σ) :
    (run setup source).run s = ((ranOf setup source s).1.1, (ranOf setup source s).2) := by
  rw [run, runFrom_eq]
  rfl

section

variable {input : Reader.Input} {ts left : List Token} {c : Command} {s : Session σ}

/-- A run stops where no command is found. -/
theorem runLeaving_none (found : Reader.command? input ts = .done none left) (bound : Nat) :
    (runLeaving setup (bound + 1) ⟨input, ts⟩).run s = ((([], .completed), ⟨input, left⟩), s) := by
  rw [runLeaving, Script.next, found]
  rfl

/-- A run stops at a command that cannot be read, with one error. -/
theorem runLeaving_failed {e : Reader.Error} (found : Reader.command? input ts = .failed e left)
    (bound : Nat) :
    ∃ quiet, Alike quiet s ∧ (runLeaving setup (bound + 1) ⟨input, ts⟩).run s =
      ((([(readErrorResponse e).text], .malformed), ⟨input, left⟩), quiet) := by
  obtain ⟨lines, quiet⟩ := report_run (readErrorResponse e) s
  refine ⟨_, quiet, ?_⟩
  have error : printed s.state (.ok (readErrorResponse e)) = [(readErrorResponse e).text] := by
    cases e <;> rfl
  rw [error] at lines
  rw [runLeaving, Script.next, found, ← lines]
  rfl

/-- A run goes on behind a command, unless that has ended the session. -/
theorem runLeaving_answered (found : Reader.command? input ts = .done (some c) left)
    {r : Response} (answered : ((execute setup c).run s).1 = .ok r) (bound : Nat) :
    ∃ quiet, Alike quiet ((execute setup c).run s).2 ∧
      (runLeaving setup (bound + 1) ⟨input, ts⟩).run s =
        if quiet.state.terminated then
          (((printed quiet.state (.ok r), .completed), ⟨input, left⟩), quiet)
        else
          Ran.behind (printed quiet.state (.ok r))
            ((runLeaving setup bound ⟨input, left⟩).run quiet) := by
  rw [runLeaving, Script.next, found]
  dsimp only
  rw [StateT.run_bind]
  generalize (execute setup c).run s = executed at answered ⊢
  obtain ⟨answer, behind⟩ := executed
  cases answered
  obtain ⟨lines, quiet⟩ := report_run r behind
  refine ⟨_, quiet, ?_⟩
  rw [← quiet.state] at lines
  rw [← lines]
  exact apply_ite (fun ran : Act σ ((List String × RunEnd) × Script) =>
    ran.run ((report r).run behind).2) _ _ _

end

/-! ## Two runs in step -/

/-- **Two runs go in step over a command** that is the same without positions: they print the
same lines, and both stop or both go on. -/
theorem runLeaving_both {input input' : Reader.Input} {ts ts' left left' : List Token}
    {c c' : Command} (found : Reader.command? input ts = .done (some c) left)
    (found' : Reader.command? input' ts' = .done (some c') left') (same : c.bare = c'.bare)
    {s s' : Session σ} (alike : Alike s s') (bound bound' : Nat) :
    ∃ quiet quiet' lines, Alike quiet quiet' ∧
      (runLeaving setup (bound + 1) ⟨input, ts⟩).run s =
        (if quiet.state.terminated then (((lines, .completed), ⟨input, left⟩), quiet)
        else Ran.behind lines ((runLeaving setup bound ⟨input, left⟩).run quiet)) ∧
      (runLeaving setup (bound' + 1) ⟨input', ts'⟩).run s' =
        (if quiet.state.terminated then (((lines, .completed), ⟨input', left'⟩), quiet')
        else Ran.behind lines ((runLeaving setup bound' ⟨input', left'⟩).run quiet')) := by
  obtain ⟨r, answered⟩ := exists_response setup (proper_of_command found) s
  obtain ⟨answers, behind⟩ := execute_of_bare setup same alike
  rw [answered] at answers
  obtain ⟨r', answered'⟩ := response_of_bare answers.symm
  rw [answered'] at answers
  obtain ⟨quiet, like, ran⟩ := runLeaving_answered setup found answered bound
  obtain ⟨quiet', like', ran'⟩ := runLeaving_answered setup found' answered' bound'
  have alike : Alike quiet quiet' := like.trans (behind.trans like'.symm)
  rw [← alike.state, ← printed_of_bare answers] at ran'
  exact ⟨quiet, quiet', _, alike, ran, ran'⟩

/-! ## A text at another place -/

/-- Errors that are the same but for the range that is blamed are printed alike. -/
theorem text_of_like {e e' : Reader.Error} (like : e.Like e') :
    (readErrorResponse e).text = (readErrorResponse e').text := by
  cases like <;> rfl

/-- **A run does not see where its text stands**, nor what was reported before. -/
theorem runLeaving_alike {input input' : Reader.Input} {ts ts' : List Token} {bound bound' : Nat}
    (ends : input.ending.Like input'.ending)
    (same : ts.map Token.lexeme = ts'.map Token.lexeme) (enough : ts.length < bound)
    (enough' : ts'.length < bound') {s s' : Session σ} (alike : Alike s s') :
    Ran.Alike ((runLeaving setup bound ⟨input, ts⟩).run s)
      ((runLeaving setup bound' ⟨input', ts'⟩).run s') := by
  induction bound generalizing ts ts' bound' s s' with
  | zero => exact absurd enough (Nat.not_lt_zero _)
  | succ bound ih =>
    obtain ⟨bound', rfl⟩ : ∃ n, bound' = n + 1 := ⟨bound' - 1, by omega⟩
    have outcomes := Reader.Blind.command? input input' ts ts' ends same
    generalize found : Reader.command? input ts = outcome,
      found' : Reader.command? input' ts' = outcome' at outcomes
    cases outcomes with
    | failed errors left =>
      obtain ⟨quiet, like, ran⟩ := runLeaving_failed setup (s := s) found bound
      obtain ⟨quiet', like', ran'⟩ := runLeaving_failed setup (s := s') found' bound'
      rw [ran, ran', text_of_like errors]
      exact ⟨rfl, like.trans (alike.trans like'.symm)⟩
    | @done c? c?' left left' related lexemes =>
      cases c? with
      | none =>
        obtain rfl := Option.map_eq_none_iff.mp related.symm
        rw [runLeaving_none setup found, runLeaving_none setup found']
        exact ⟨rfl, alike⟩
      | some c =>
        obtain ⟨c', rfl, bare⟩ := Option.map_eq_some_iff.mp related.symm
        have fits : left.length < bound := by
          have shorter := length_lt_of_command found
          omega
        have fits' : left'.length < bound' := by
          have shorter := length_lt_of_command found'
          omega
        obtain ⟨quiet, quiet', lines, alike, ran, ran'⟩ :=
          runLeaving_both setup found found' bare.symm alike bound bound'
        rw [ran, ran']
        split
        · exact ⟨rfl, alike⟩
        · exact (ih lexemes fits fits' alike).behind lines

/-! ## A script in front of more tokens -/

/-- What it is for a run of a script in front of more tokens to go on like one of the script
alone: the script is carried out to its end, and if the session is over then, all the other
tokens are left; otherwise they are read next, in the session that the script has left. -/
structure Continues (setup : Setup σ) (input : Reader.Input) (later : List Token)
    (alone joined : Ran σ) : Prop where
  completed : alone.1.1.2 = .completed
  stopped : alone.2.state.terminated = true →
    joined.1.1 = alone.1.1 ∧ Alike joined.2 alone.2 ∧ ∃ unread, joined.1.2.pending = unread ++ later
  goes_on : alone.2.state.terminated = false →
    ∃ bound s, later.length < bound ∧ Alike s alone.2 ∧
      joined = Ran.behind alone.1.1.1 ((runLeaving setup bound ⟨input, later⟩).run s)

/-- More lines in front of both make no difference. -/
theorem Continues.behind {input : Reader.Input} {later : List Token} {alone joined : Ran σ}
    (continues : Continues setup input later alone joined) (lines : List String) :
    Continues setup input later (alone.behind lines) (joined.behind lines) where
  completed := continues.completed
  stopped ended := by
    obtain ⟨result, alike, left⟩ := continues.stopped ended
    exact ⟨by rw [Ran.behind, Ran.behind, result], alike, left⟩
  goes_on running := by
    obtain ⟨bound, s, enough, alike, joined⟩ := continues.goes_on running
    exact ⟨bound, s, enough, alike, by rw [joined, Ran.behind_behind]; rfl⟩

/-- **Commands are carried out in front of any tokens as they are alone.** -/
theorem continues {input input' : Reader.Input} (ends : input.malformed? = none)
    {cs : List Command} {ts later : List Token}
    (spelled : SpelledAll Command.Spelled cs (ts.map Token.lexeme)) {bound bound' : Nat}
    (enough : cs.length < bound) (enough' : cs.length + later.length < bound') {s s' : Session σ}
    (alike : Alike s s') (running : s.state.terminated = false) :
    Continues setup input' later ((runLeaving setup bound ⟨input, ts⟩).run s)
      ((runLeaving setup bound' ⟨input', ts ++ later⟩).run s') := by
  induction cs generalizing ts bound bound' s s' with
  | nil =>
    obtain ⟨bound, rfl⟩ : ∃ n, bound = n + 1 := ⟨bound - 1, by omega⟩
    obtain rfl := List.map_eq_nil_iff.mp spelled
    rw [runLeaving_none setup (Reader.command_at_end ends)]
    refine ⟨rfl, fun stopped => ?_, fun _ => ⟨bound', s', by simpa using enough', alike.symm, rfl⟩⟩
    rw [running] at stopped
    cases stopped
  | cons c cs ih =>
    rw [List.length_cons] at enough enough'
    obtain ⟨bound, rfl⟩ : ∃ n, bound = n + 1 := ⟨bound - 1, by omega⟩
    obtain ⟨bound', rfl⟩ : ∃ n, bound' = n + 1 := ⟨bound' - 1, by omega⟩
    obtain ⟨_, _, split, spelled_here, spelled_later⟩ := spelled
    obtain ⟨us, vs, rfl, rfl, rfl⟩ := List.map_eq_append_iff.mp split
    rw [List.append_assoc]
    obtain ⟨_, found, c₁, rfl, bare⟩ := Reader.command_reads c spelled_here input us vs rfl rfl
    obtain ⟨_, found', c₂, rfl, bare'⟩ :=
      Reader.command_reads c spelled_here input' us (vs ++ later) rfl rfl
    obtain ⟨quiet, quiet', lines, alike, ran, ran'⟩ :=
      runLeaving_both setup found found' (bare.trans bare'.symm) alike bound bound'
    rw [ran, ran']
    by_cases stopped : quiet.state.terminated = true
    · rw [if_pos stopped, if_pos stopped]
      refine ⟨rfl, fun _ => ⟨rfl, alike.symm, vs, rfl⟩, fun running => ?_⟩
      rw [stopped] at running
      cases running
    · rw [if_neg stopped, if_neg stopped]
      have fits : cs.length < bound := by omega
      have fits' : cs.length + later.length < bound' := by omega
      have rest := ih spelled_later fits fits' alike (by simpa using stopped)
      exact rest.behind setup lines

/-! ## A command that cannot be read -/

/-- The steps of commands that are carried out one behind the other, up to the first that ends
the session. -/
def stepsOf (cs : List Command) (s : Session σ) : List (Step σ) :=
  untilEnded (executeAll setup cs s)

theorem stepsOf_cons (c : Command) (cs : List Command) (s : Session σ) :
    stepsOf setup (c :: cs) s =
      (c, (execute setup c).run s) ::
        if ((execute setup c).run s).2.state.terminated || !((execute setup c).run s).1.isOk then []
        else stepsOf setup cs ((execute setup c).run s).2 :=
  untilEnded_executeAll setup c cs s

/-- A run goes on behind a command that is read, unless that has ended the session. -/
theorem runLeaving_step {script : Script} {c : Command} (read : script.next.1 = .ok (some c))
    {s s' : Session σ} (alike : Alike s s') (bound : Nat) :
    ∃ quiet, Alike quiet ((execute setup c).run s').2 ∧
      (runLeaving setup (bound + 1) script).run s =
        if ((execute setup c).run s').2.state.terminated then
          (((Step.printed (c, (execute setup c).run s'), .completed), script.next.2), quiet)
        else
          Ran.behind (Step.printed (c, (execute setup c).run s'))
            ((runLeaving setup bound script.next.2).run quiet) := by
  obtain ⟨found, rest⟩ := Script.command_of_next read
  obtain ⟨r, answered⟩ := exists_response setup (Command.proper_of_next read) s
  obtain ⟨same, behind⟩ := execute_alike setup c alike
  obtain ⟨quiet, like, ran⟩ := runLeaving_answered setup found answered bound
  have alike' := like.trans behind
  refine ⟨quiet, alike', ?_⟩
  rw [rest, Step.printed, ← same, answered, ← alike'.state]
  exact ran

/-- **A command that cannot be read is one error** behind what is printed of the commands in
front of it, each of which has been carried out once; the session is left as they left it. -/
theorem runLeaving_fails {cs : List Command} {e : Reader.Error} {script : Script}
    (fails : script.FailsBehind cs e) {bound : Nat} (enough : cs.length < bound)
    {s s' : Session σ} (alike : Alike s s')
    (running : (sessionBehind s' (stepsOf setup cs s')).state.terminated = false) :
    ((runLeaving setup bound script).run s).1.1 =
        ((stepsOf setup cs s').flatMap Step.printed ++ [(readErrorResponse e).text],
          .malformed) ∧
      Alike ((runLeaving setup bound script).run s).2 (sessionBehind s' (stepsOf setup cs s')) := by
  induction cs generalizing script bound s s' with
  | nil =>
    obtain ⟨bound, rfl⟩ : ∃ n, bound = n + 1 := ⟨bound - 1, by omega⟩
    obtain ⟨quiet, like, ran⟩ :=
      runLeaving_failed setup (s := s) (Script.failed_of_next fails).1 bound
    have ran : (runLeaving setup (bound + 1) script).run s = _ := ran
    rw [ran]
    exact ⟨rfl, like.trans alike⟩
  | cons c cs ih =>
    rw [List.length_cons] at enough
    obtain ⟨bound, rfl⟩ : ∃ n, bound = n + 1 := ⟨bound - 1, by omega⟩
    have fits : cs.length < bound := by omega
    obtain ⟨here, later⟩ := fails
    obtain ⟨r, answered⟩ := exists_response setup (Command.proper_of_next here) s'
    obtain ⟨quiet, alike, ran⟩ := runLeaving_step setup here alike bound
    have stops : (((execute setup c).run s').2.state.terminated || !(Except.ok r : Answer).isOk) =
        ((execute setup c).run s').2.state.terminated := Bool.or_false _
    rw [stepsOf_cons, answered, stops] at running ⊢
    rw [ran]
    by_cases stopped : ((execute setup c).run s').2.state.terminated = true
    · rw [if_pos stopped] at running
      exact absurd (running.symm.trans stopped) Bool.false_ne_true
    · rw [if_neg stopped] at running ⊢
      rw [if_neg stopped]
      obtain ⟨result, behind⟩ := ih later fits alike running
      refine ⟨?_, behind⟩
      rw [Ran.behind, result, List.flatMap_cons, List.append_assoc]

/-! ## Runs over an image of the transport -/

section

variable {f : τ → σ} {t : Transport τ} {earlier : List Log.Record}

/-- What is printed of a response does not depend on the memory of the transport. -/
theorem lifts_report (r : Response) :
    Lifts f id earlier (report r : Act τ (List String)) (report r) := by
  refine Lifts.get_bind fun s => ?_
  let quietly : Prop := r.kind = .success ∧ s.state.options.get? ":print-success" = some "false"
  change Lifts f id earlier (if quietly then _ else _) (if quietly then _ else _)
  by_cases quiet : quietly
  · rw [if_pos quiet, if_pos quiet]
    exact .of_pure _
  · rw [if_neg quiet, if_neg quiet]
    cases r.isError with
    | false => exact .of_pure _
    | true =>
      cases r.pos with
      | none => exact .of_pure _
      | some pos => exact (lifts_record _ _).bind fun _ => .of_pure _

variable (image : Over f t setup.transport)

include image

theorem lifts_runFrom (bound : Nat) (script : Script) :
    Lifts f id earlier (runFrom (setup.withTransport t) bound script)
      (runFrom setup bound script) := by
  induction bound generalizing script with
  | zero => exact .of_pure _
  | succ bound ih =>
    rw [runFrom, runFrom]
    obtain ⟨found, rest⟩ := script.next
    cases found with
    | error e => exact (lifts_report _).bind fun _ => .of_pure _
    | ok c? =>
      cases c? with
      | none => exact .of_pure _
      | some c =>
        refine (lifts_execute setup image c).bind fun answer => ?_
        cases answer with
        | error part => exact .of_pure _
        | ok r =>
          refine (lifts_report r).bind fun lines => Lifts.get_bind fun s => ?_
          change Lifts f id earlier (if s.state.terminated then _ else _)
            (if s.state.terminated then _ else _)
          by_cases stopped : s.state.terminated = true
          · rw [if_pos stopped, if_pos stopped]
            exact .of_pure _
          · rw [if_neg stopped, if_neg stopped]
            exact (ih rest).bind fun _ => .of_pure _

/-- **A run cannot look at the memory of its transport.** -/
theorem run_mapLink (source : Source) (s : Session τ) :
    (run setup source).run (s.mapLink f) =
      (((run (setup.withTransport t) source).run s).1,
        ((run (setup.withTransport t) source).run s).2.mapLink f) :=
  have lifts : Lifts f id [] (run (setup.withTransport t) source) (run setup source) :=
    lifts_runFrom setup image _ _
  lifts s

/-- Nor can commands that are carried out one behind the other. -/
theorem sessionBehind_mapLink (cs : List Command) (s : Session τ) :
    sessionBehind (s.mapLink f) (stepsOf setup cs (s.mapLink f)) =
      (sessionBehind s (stepsOf (setup.withTransport t) cs s)).mapLink f := by
  induction cs generalizing s with
  | nil => rfl
  | cons c cs ih =>
    have here : (execute setup c).run (s.mapLink f) =
        (((execute (setup.withTransport t) c).run s).1,
          ((execute (setup.withTransport t) c).run s).2.mapLink f) := by
      have lifts : Lifts f id [] (execute (setup.withTransport t) c) (execute setup c) :=
        lifts_execute setup image c
      exact lifts s
    rw [stepsOf_cons, stepsOf_cons, here]
    generalize (execute (setup.withTransport t) c).run s = executed
    obtain ⟨answer, behind⟩ := executed
    have state : (behind.mapLink f).state = behind.state := rfl
    dsimp only
    rw [state]
    by_cases stops : (behind.state.terminated || !answer.isOk) = true
    · rw [if_pos stops, if_pos stops]
      rfl
    · rw [if_neg stops, if_neg stops]
      exact ih behind

end

/-! ## Uses -/

/-- What a run does with the transport, in order. -/
def runUses (source : Source) (s : Session σ) : List Use :=
  ((run setup.watched source).run (s.watch [])).2.link.2

/-- What commands do with the transport when they are carried out one behind the other, up to
the end of the session. -/
def commandUses (cs : List Command) (s : Session σ) : List Use :=
  (sessionBehind (s.watch []) (stepsOf setup.watched cs (s.watch []))).link.2

/-- A watched session is one that was watched from the start, behind the uses up to now. -/
theorem watch_behind (w : Session (σ × List Use)) :
    ((w.mapLink Prod.fst).watch []).mapLink (fun m => (m.1, w.link.2 ++ m.2)) = w := by
  simp only [mapLink, watch, List.append_nil]

/-- Watching a run changes nothing but that it is watched. -/
theorem ranOf_watched (source : Source) (s : Session σ) :
    (ranOf setup source s).2 = (ranOf setup.watched source (s.watch [])).2.mapLink Prod.fst := by
  have watched : (run setup source).run s = (((run setup.watched source).run (s.watch [])).1,
      ((run setup.watched source).run (s.watch [])).2.mapLink Prod.fst) :=
    run_mapLink setup (Transport.watched_over setup.transport) source (s.watch [])
  rw [run_eq, run_eq] at watched
  exact congrArg (·.2) watched

/-- The uses of a run come behind those up to now. -/
theorem run_watched (source : Source) (w : Session (σ × List Use)) :
    ((run setup.watched source).run w).2.link.2 =
      w.link.2 ++ runUses setup source (w.mapLink Prod.fst) := by
  have ran := run_mapLink setup.watched
    (Transport.watched_over_past setup.transport w.link.2) source ((w.mapLink Prod.fst).watch [])
  rw [watch_behind] at ran
  rw [ran]
  rfl

/-! ## Composition -/

/-- Each command takes some tokens, also in front of an error. -/
theorem length_le_of_fails {cs : List Command} {e : Reader.Error} {script : Script}
    (fails : script.FailsBehind cs e) : cs.length ≤ script.pending.length := by
  induction cs generalizing script with
  | nil => exact Nat.zero_le _
  | cons c cs ih =>
    obtain ⟨here, later⟩ := fails
    have shorter := length_lt_of_command (Script.command_of_next here).1
    have fits := ih later
    rw [List.length_cons]
    omega

section

variable {source : Source} {cs : List Command} {e : Reader.Error}
  (fails : (Script.ofSource source).FailsBehind cs e) {s : Session σ}
  (still : (sessionBehind s (stepsOf setup cs s)).state.terminated = false)

include fails still

/-- A text with a command that cannot be read comes to one error behind the others. -/
theorem ranOf_fails :
    (ranOf setup source s).1.1 =
        ((stepsOf setup cs s).flatMap Step.printed ++ [(readErrorResponse e).text], .malformed) ∧
      Alike (ranOf setup source s).2 (sessionBehind s (stepsOf setup cs s)) :=
  runLeaving_fails setup fails (Nat.lt_succ_of_le (length_le_of_fails fails)) (Alike.refl s) still

/-- Nothing is handed over for the command that cannot be read. -/
theorem runUses_fails : runUses setup source s = commandUses setup cs s := by
  have watched := sessionBehind_mapLink setup (Transport.watched_over setup.transport) cs
    (s.watch [])
  have still_watched :
      (sessionBehind (s.watch []) (stepsOf setup.watched cs (s.watch []))).state.terminated =
        false := by
    rw [show (s.watch []).mapLink Prod.fst = s from rfl] at watched
    rw [watched] at still
    exact still
  rw [runUses, commandUses, run_eq]
  exact congrArg (·.2) (ranOf_fails setup.watched fails still_watched).2.link

end

/-- What it is for a run of two texts, one on the line behind the other, to be a run of the
first (`alone`) and then one of the second. -/
structure Composes (setup : Setup σ) (a b joined : Source) (s : Session σ)
    (alone ran : (List String × RunEnd) × Session σ) : Prop where
  /-- The first text is carried out to its end, or to the end of the session. -/
  completed : alone.1.2 = .completed
  /-- If it ends the session, nothing else is printed or handed over, the status is that of a
  success, and of the second text all tokens are left. -/
  stopped : alone.2.state.terminated = true →
    ran.1 = alone.1 ∧ Program.status ran.1.2 = 0 ∧ Alike ran.2 alone.2 ∧
      runUses setup joined s = runUses setup a s ∧
      ∃ unread, (ranOf setup joined s).1.2.pending =
        unread ++ (b.tokenize.shift (a.text.length + 1)).list
  /-- Otherwise the second text is carried out from the session that the first has left. -/
  continued : alone.2.state.terminated = false →
    let next := (run setup b).run alone.2
    ran.1 = (alone.1.1 ++ next.1.1, next.1.2) ∧ Alike ran.2 next.2 ∧
      runUses setup joined s = runUses setup a s ++ runUses setup b alone.2
  /-- So the first command of it that cannot be read is one error, behind what is printed of
  the commands in front of it. Each of these has been carried out once, and nothing is handed
  over behind them. -/
  malformed : alone.2.state.terminated = false →
    ∀ cs e, (Script.ofSource b).FailsBehind cs e →
      (sessionBehind alone.2 (stepsOf setup cs alone.2)).state.terminated = false →
      ran.1 = (alone.1.1 ++ ((stepsOf setup cs alone.2).flatMap Step.printed ++
          [(readErrorResponse e).text]), .malformed) ∧
        Program.status ran.1.2 = 1 ∧
        Alike ran.2 (sessionBehind alone.2 (stepsOf setup cs alone.2)) ∧
        runUses setup joined s = runUses setup a s ++ commandUses setup cs alone.2

section

variable {a b : Source} {cs : List Command} (read : readScript a = .ok cs)
  (closed : ¬ a.EndsInLiteral) (location : Option String)

include read closed

/-- **A run of two texts goes on behind the first** like one of the first alone. -/
theorem continues_joined {s : Session σ} (running : s.state.terminated = false) :
    Continues setup ⟨a.joined b location, (b.tokenize.shift (a.text.length + 1)).ending⟩
      (b.tokenize.shift (a.text.length + 1)).list (ranOf setup a s)
      (ranOf setup (a.joined b location) s) := by
  obtain ⟨done, well⟩ := Reader.done_of_readAll read
  obtain ⟨taken, all, spelled⟩ := Reader.Takes.script _ _ _ done
  rw [List.append_nil] at all
  subst all
  have fits := Reader.length_le_of_spelled spelled
  rw [List.length_map] at fits
  rw [ranOf, ranOf, Script.ofSource, Script.ofSource, Source.tokenize_joined read closed b location]
  dsimp only
  refine continues setup well spelled (Nat.lt_succ_of_le fits) ?_ (Alike.refl s) running
  rw [List.length_append]
  omega

/-- What goes on behind the first text is a run of the second. -/
theorem ran_joined {s : Session σ} (running : s.state.terminated = false)
    (runs : (ranOf setup a s).2.state.terminated = false) :
    Ran.Alike (ranOf setup (a.joined b location) s)
      ((ranOf setup b (ranOf setup a s).2).behind (ranOf setup a s).1.1.1) := by
  obtain ⟨bound, s', enough, alike, joined⟩ :=
    (continues_joined setup read closed location running).goes_on runs
  let moved := b.tokenize.shift (a.text.length + 1)
  have ends : moved.ending.Like b.tokenize.ending := (b.tokenize.ending.like_shift _).symm
  have next : Ran.Alike
      ((runLeaving setup bound ⟨⟨a.joined b location, moved.ending⟩, moved.list⟩).run s')
      (ranOf setup b (ranOf setup a s).2) :=
    runLeaving_alike setup ends (Token.map_lexeme_shift _ b.tokenize.list) enough
      (Nat.lt_succ_self _) alike
  rw [joined]
  exact next.behind _

/-- What two texts do with the transport is what the first does, and then the second. -/
theorem runUses_joined {s : Session σ} (running : s.state.terminated = false)
    (runs : (ranOf setup a s).2.state.terminated = false) :
    runUses setup (a.joined b location) s =
      runUses setup a s ++ runUses setup b (ranOf setup a s).2 := by
  have behind := ranOf_watched setup a s
  have runs_watched : (ranOf setup.watched a (s.watch [])).2.state.terminated = false := by
    rw [behind] at runs
    exact runs
  have running_watched : (s.watch []).state.terminated = false := running
  have joined := ran_joined setup.watched read closed (b := b) location running_watched runs_watched
  have next := run_watched setup b (ranOf setup.watched a (s.watch [])).2
  rw [run_eq] at next
  rw [runUses, runUses, run_eq, run_eq, behind, ← next]
  exact congrArg (·.2) joined.session.link

/-- **Running a script composes.** Over every transport and from every session that is not
over: a script that does not end inside a string literal, with any text on the next line, is
the script and then, unless that has ended the session, the text. -/
theorem run_composes {s : Session σ} (running : s.state.terminated = false) :
    Composes setup a b (a.joined b location) s ((run setup a).run s)
      ((run setup (a.joined b location)).run s) := by
  have joined := continues_joined setup read closed (b := b) location running
  rw [run_eq, run_eq]
  refine ⟨joined.completed, fun ended => ?stopped, fun runs => ?continued,
    fun runs cs' e fails still => ?malformed⟩
  case stopped =>
    obtain ⟨result, alike, left⟩ := joined.stopped ended
    have ended_watched : (ranOf setup.watched a (s.watch [])).2.state.terminated = true := by
      rw [ranOf_watched] at ended
      exact ended
    have running_watched : (s.watch []).state.terminated = false := running
    have watched := continues_joined setup.watched read closed (b := b) location running_watched
    obtain ⟨-, alike_watched, -⟩ := watched.stopped ended_watched
    refine ⟨result, ?_, alike, ?_, left⟩
    · dsimp only
      rw [result, joined.completed]
      rfl
    · rw [runUses, runUses, run_eq, run_eq]
      exact congrArg (·.2) alike_watched.link
  case continued =>
    obtain ⟨result, alike⟩ := ran_joined setup read closed (b := b) location running runs
    rw [run_eq]
    exact ⟨result, alike, runUses_joined setup read closed location running runs⟩
  case malformed =>
    obtain ⟨result, alike⟩ := ran_joined setup read closed (b := b) location running runs
    obtain ⟨failed, behind⟩ := ranOf_fails setup fails still
    rw [Ran.behind, failed] at result
    refine ⟨result, ?_, alike.trans behind, ?_⟩
    · dsimp only
      rw [result]
      rfl
    · rw [runUses_joined setup read closed location running runs, runUses_fails setup fails still]

end

/-- A script of two commands, with one more command and one that is not complete on the next
line. -/
theorem run_composes_malformed :
    let a : Source := ⟨"(push 1)(check-sat) ; as it is", none⟩
    let b : Source := ⟨"(pop 1) (assert (> x 1)", none⟩
    ∃ cs, readScript a = .ok cs ∧ ¬ a.EndsInLiteral ∧
      Composes .agreeable a b (a.joined b none) .agreed ((run .agreeable a).run .agreed)
        ((run .agreeable (a.joined b none)).run .agreed) ∧
      ((run .agreeable (a.joined b none)).run .agreed).1 =
        (["success", "unknown", "success", "(error \"Unexpected end of input in assert\")"],
          .malformed) := by
  intro a b
  have printed : (readScript a).toOption.map
      (fun _ => ((run .agreeable (a.joined b none)).run .agreed).1) =
      some (["success", "unknown", "success", "(error \"Unexpected end of input in assert\")"],
        .malformed) := by
    decide +kernel
  obtain ⟨cs, read, result⟩ := exists_of_readScript printed
  have closed : ¬ a.EndsInLiteral := Source.not_endsInLiteral (by decide)
  exact ⟨cs, read, closed, run_composes .agreeable read closed none rfl, result⟩

end Session

end SmtSession
