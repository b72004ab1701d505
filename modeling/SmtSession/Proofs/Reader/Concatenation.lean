import SmtSession.Proofs.Reader.Commands
import SmtSession.Proofs.Reader.Joined
import SmtSession.Proofs.Reader.TakenTerms

/-!
# Reading one text behind another

**Reading is a homomorphism** from texts, one on the line behind the other, to lists of
commands: `readScript_joined`. Behind a text that was read to its end, the reader is where it
would be in front of the other one alone. So it gives the same commands, or the same error, at
their places in the whole text.

The first text is read in front of more tokens, command by command (`Gives.moved`); the second
one at another place, all at once (`Moves.commands`).
-/

namespace SmtSession

namespace Reader

/-! ## Commands up to the end -/

/-- The tokens give these commands, one behind the other, and end well behind them. -/
inductive Gives (input : Input) : List Token → List Command → Prop
  | ended (well : input.malformed? = none) : Gives input [] []
  | command {ts rest : List Token} {c : Command} {cs : List Command}
      (found : command? input ts = .done (some c) rest) (more : Gives input rest cs) :
      Gives input ts (c :: cs)

/-- The commands that are read, behind others. -/
def Outcome.behind (cs : List Command) : Outcome (List Command) → Outcome (List Command)
  | .done cs' left => .done (cs ++ cs') left
  | .failed e left => .failed e left

theorem Outcome.behind_nil (o : Outcome (List Command)) : o.behind [] = o := by
  cases o <;> rfl

theorem Outcome.behind_cons (c : Command) (cs : List Command) (o : Outcome (List Command)) :
    (o.behind cs).behind [c] = o.behind (c :: cs) := by
  cases o <;> rfl

section

variable {input : Input} {ts left : List Token}

theorem commands_some {c : Command} (found : command? input ts = .done (some c) left) (n : Nat) :
    commands (n + 1) input ts = (commands n input left).behind [c] := by
  refine (bind_of_done found).trans ?_
  cases later : commands n input left with
  | done cs rest => exact bind_of_done later
  | failed e rest => exact bind_of_failed later

theorem commands_none (found : command? input ts = .done none left) (n : Nat) :
    commands (n + 1) input ts = .done [] left :=
  bind_of_done found

theorem commands_failed {e : Error} (found : command? input ts = .failed e left) (n : Nat) :
    commands (n + 1) input ts = .failed e left :=
  bind_of_failed found

/-- Bounds that are large enough make no difference. -/
theorem commands_eq {n m : Nat} (enough : ts.length < n) (enough' : ts.length < m) :
    commands n input ts = commands m input ts := by
  induction n generalizing ts m with
  | zero => exact absurd enough (Nat.not_lt_zero _)
  | succ n ih =>
    obtain ⟨m, rfl⟩ : ∃ k, m = k + 1 := ⟨m - 1, by omega⟩
    cases found : command? input ts with
    | failed e left => rw [commands_failed found, commands_failed found]
    | done c? left =>
      cases c? with
      | none => rw [commands_none found, commands_none found]
      | some c =>
        have shorter := length_lt_of_command found
        have same : commands n input left = commands m input left := ih (by omega) (by omega)
        rw [commands_some found, commands_some found, same]

/-- Commands are read up to the end of tokens that end well. -/
theorem gives_of_commands {n : Nat} {cs : List Command} (enough : ts.length < n)
    (read : commands n input ts = .done cs left) : left = [] ∧ Gives input ts cs := by
  induction n generalizing ts cs with
  | zero => exact absurd enough (Nat.not_lt_zero _)
  | succ n ih =>
    cases found : command? input ts with
    | failed e rest =>
      rw [commands_failed found] at read
      cases read
    | done c? rest =>
      cases c? with
      | none =>
        obtain ⟨rfl, rfl, well⟩ := ended_of_command found
        rw [commands_none found] at read
        cases read
        exact ⟨rfl, .ended well⟩
      | some c =>
        have shorter := length_lt_of_command found
        rw [commands_some found] at read
        cases later : commands n input rest with
        | failed e rest' =>
          rw [later] at read
          cases read
        | done cs' rest' =>
          rw [later] at read
          cases read
          obtain ⟨rfl, more⟩ := ih (by omega) later
          exact ⟨rfl, .command found more⟩

theorem Gives.well {cs : List Command} (gives : Gives input ts cs) : input.malformed? = none := by
  induction gives with
  | ended well => exact well
  | command _ _ ih => exact ih

end

/-- All the commands of a source, or the error that they end in. -/
def outcomeOf (s : Source) : Outcome (List Command) :=
  commands (s.tokenize.list.length + 1) ⟨s, s.tokenize.ending⟩ s.tokenize.list

/-- The value or the error, whatever is left. -/
def Outcome.result : Outcome α → Except Error α
  | .done a _ => .ok a
  | .failed e _ => .error e

/-- Nothing is left behind the commands of a script. -/
theorem readScript_eq (s : Source) : readScript s = (outcomeOf s).result := by
  cases read : outcomeOf s with
  | failed e left =>
    have fails : (do let cs ← (do commands ((← remaining) + 1)); finished; pure cs : Reader _)
        ⟨s, s.tokenize.ending⟩ s.tokenize.list = .failed e left := bind_of_failed read
    rw [readScript, readAll, fails]
    rfl
  | done cs left =>
    obtain ⟨rfl, gives⟩ := gives_of_commands (Nat.lt_succ_self _) read
    exact readAll_of_done gives.well read

theorem gives_of_readScript {s : Source} {cs : List Command} (read : readScript s = .ok cs) :
    Gives ⟨s, s.tokenize.ending⟩ s.tokenize.list cs := by
  rw [readScript_eq] at read
  cases is : outcomeOf s with
  | failed e left =>
    rw [is] at read
    cases read
  | done cs left =>
    rw [is] at read
    cases read
    exact (gives_of_commands (Nat.lt_succ_self _) is).2

/-! ## At another place -/

section

variable {here : Input} (π : Elsewhere here)

/-- All the commands are read there too, where the tokens end as they do here. -/
theorem Moves.commands (ends : π.Ends) (n : Nat) :
    Moves π (List.map (Command.relocate π.part)) (Reader.commands n) (Reader.commands n) := by
  induction n with
  | zero => exact pure rfl
  | succ n ih =>
    refine bind (fun ts => command? π ts fun _ => ends) fun c? => ?_
    cases c? with
    | none => exact pure rfl
    | some c => exact bind ih fun cs => pure rfl

/-- **Behind commands that were read to the end, the reader goes on with what is left.** -/
theorem Gives.moved {ts : List Token} {cs : List Command} (gives : Gives here ts cs) {n m : Nat}
    (enough : (π.tokens ts).length < n) (enough' : π.more.length < m) :
    Reader.commands n π.there (π.tokens ts) =
      (Reader.commands m π.there π.more).behind (cs.map (Command.relocate π.part)) := by
  induction gives generalizing n with
  | ended =>
    rw [List.map_nil, Outcome.behind_nil]
    exact commands_eq enough enough'
  | @command ts rest c cs found _ ih =>
    obtain ⟨n, rfl⟩ : ∃ k, n = k + 1 := ⟨n - 1, by omega⟩
    have shorter := length_lt_of_command found
    have fits : (π.tokens rest).length < n := by
      rw [π.length_tokens] at enough ⊢
      omega
    have there := Moves.command? π ts fun none => by
      rw [none] at shorter
      exact absurd shorter (Nat.not_lt_zero _)
    rw [found] at there
    generalize moved : Reader.command? π.there (π.tokens ts) = outcome at there
    cases there with
    | done =>
      rw [commands_some moved, ih fits, Outcome.behind_cons]
      rfl

end

end Reader

/-! ## Two texts -/

theorem Ending.shift_eq_moved (k : Nat) (e : Ending) : e.shift k = e.moved (k + ·) := by
  cases e <;> rfl

open Reader

section

variable (a b : Source) (location : Option String)

/-- The whole of two texts, one on the line behind the other, with the end of the second. -/
def Source.joinedInput : Input :=
  ⟨a.joined b location, b.tokenize.ending.moved (a.text.length + 1 + ·)⟩

/-- The second text, at the end of the whole. -/
def Source.behind : Elsewhere ⟨b, b.tokenize.ending⟩ where
  there := a.joinedInput b location
  offset := (a.text.length + 1 + ·)
  more := []

/-- The first text, in front of the second. -/
def Source.inFront : Elsewhere ⟨a, a.tokenize.ending⟩ where
  there := a.joinedInput b location
  offset := id
  more := (a.behind b location).tokens b.tokenize.list

variable {a} {cs : List Command} (read : readScript a = .ok cs) (closed : ¬ a.EndsInLiteral)

include read closed

/-- The tokens of the whole are those of the first text, in front of those of the second. -/
theorem Source.tokenize_whole :
    (a.joined b location).tokenize =
      ⟨(a.inFront b location).tokens a.tokenize.list, (a.joinedInput b location).ending⟩ := by
  have same : a.tokenize.list.map (a.inFront b location).token = a.tokenize.list :=
    List.map_id _
  have none : (a.behind b location).tokens b.tokenize.list =
      b.tokenize.list.map (Token.shift (a.text.length + 1)) := List.append_nil _
  rw [tokenize_joined read closed, Elsewhere.tokens, same, inFront, none, joinedInput,
    ← Ending.shift_eq_moved]
  rfl

/-- The commands of the whole are those of the first text, and then what is read of the second
where it stands. -/
theorem Source.outcome_whole :
    outcomeOf (a.joined b location) =
      (commands (b.tokenize.list.length + 1) (a.joinedInput b location)
        ((a.behind b location).tokens b.tokenize.list)).behind
        (cs.map (Command.moved id (a.joined b location))) := by
  rw [outcomeOf, tokenize_whole b location read closed]
  refine (gives_of_readScript read).moved (a.inFront b location) (Nat.lt_succ_self _) ?_
  rw [inFront, Elsewhere.length_tokens, behind]
  simp

/-- **Reading is a homomorphism.** A script that does not end inside a string literal, with any
text on the next line, is read as its own commands and then those of the text, as many
characters further on as it has itself, and one more for the line feed. If the text is refused,
so is the whole, for the same cause and at the place of its error. -/
theorem readScript_joined :
    readScript (a.joined b location) =
      match readScript b with
      | .ok cs' =>
        .ok (cs.map (Command.moved id (a.joined b location)) ++
          cs'.map (Command.moved (a.text.length + 1 + ·) (a.joined b location)))
      | .error e => .error (e.moved (a.text.length + 1 + ·) (a.joined b location)) := by
  have ends : (a.behind b location).Ends := ⟨rfl, rfl⟩
  have second := Moves.commands (a.behind b location) ends (b.tokenize.list.length + 1)
    b.tokenize.list
  rw [readScript_eq, readScript_eq, Source.outcome_whole b location read closed]
  change Outcome.Moved _ _ (outcomeOf b) (commands _ (a.joinedInput b location) _) at second
  generalize outcomeOf b = here,
    commands (b.tokenize.list.length + 1) (a.joinedInput b location)
      ((a.behind b location).tokens b.tokenize.list) = there at second
  cases second with
  | done cs' rest => rfl
  | failed e rest same =>
    rw [same ends]
    rfl

end

/-- A script that ends in a comment behind a carriage return, with a command on the next line
that is not complete. -/
theorem readScript_joined_comment :
    let a : Source := ⟨"(push 1)\r; as it is", none⟩
    let b : Source := ⟨"(pop 1)(pop", none⟩
    let whole := a.joined b none
    ∃ cs, readScript a = .ok cs ∧ ¬ a.EndsInLiteral ∧
      readScript b = .error (.malformed (.endOfInput (.within "pop")) ⟨11, 11, some b⟩) ∧
      readScript whole = .error (.malformed (.endOfInput (.within "pop")) ⟨31, 31, some whole⟩) := by
  intro a b whole
  have one : (readScript a).toOption.map List.length = some 1 := by decide +kernel
  obtain ⟨cs, read, -⟩ := exists_of_readScript one
  have closed : ¬ a.EndsInLiteral := Source.not_endsInLiteral (by decide)
  have refused : readScript b =
      .error (.malformed (.endOfInput (.within "pop")) ⟨11, 11, some b⟩) :=
    eq_error_of_computed (by decide +kernel)
  refine ⟨cs, read, closed, refused, ?_⟩
  have length : a.text.length = 19 := by decide
  rw [readScript_joined b none read closed, refused, length]
  rfl

end SmtSession
