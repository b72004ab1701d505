import SmtSession.Proofs.Reader.Commands
import SmtSession.Proofs.Reader.Pointing
import SmtSession.Proofs.Reader.TakenTerms
import SmtSession.Reader.Supply

/-!
# Going on after errors

**Whoever asks for commands comes to the end**, whatever errors come in between. Each time tokens
are taken from the stream, or there are none left; and then the answer stays the same, be it that
there is no command or that a malformed quoted symbol comes next.

The tokens left are what decreases, and a queue could make up for them. So the queue comes first:
`Mirrors` compares a reader of a supply with the one that has no queue, and finds it empty
whenever a command was asked for.
-/

namespace SmtSession.Reader

/-! ## The queue -/

/-- The tokens left. -/
def Outcome.rest : Outcome α → List Token
  | .done _ rest => rest
  | .failed _ rest => rest

/-- Who blames what was taken has taken from the front. -/
theorem Blames.length_rest_le {r : Reader α} {input : Input} {taken ts : List Token}
    (blames : Blames input ts.length taken r Any) : (r input ts).rest.length ≤ ts.length := by
  cases found : r input ts with
  | done a rest =>
    obtain ⟨more, rfl, -⟩ := blames.done ts rest a (Nat.le_refl _) found
    simp [Outcome.rest]
  | failed e rest =>
    obtain ⟨more, rfl, -⟩ := blames.failed ts rest e (Nat.le_refl _) found
    simp [Outcome.rest]

namespace Supplied

/-- **What is read of a supply agrees with what is read of tokens**: the value or the error is the
same, and so are the tokens to come. Not more than so many of them are in the queue, and none
after an error. -/
inductive Agrees (queued : Nat) : Except Error α × Supply → Outcome α → Prop
  | done (a : α) {s : Supply} (few : s.queue.length ≤ queued) :
    Agrees queued (.ok a, s) (.done a s.all)
  | failed (e : Error) (rest : List Token) : Agrees queued (.error e, ⟨[], rest⟩) (.failed e rest)

/-- The two readers agree: with not more than `m` tokens in the queue before, and `n` behind. -/
def Mirrors (m n : Nat) (x : Supplied α) (r : Reader α) : Prop :=
  ∀ input s, s.queue.length ≤ m → Agrees n (x input s) (r input s.all)

/-- A reader that takes what is in the queue leaves nothing there. -/
theorem lift_agrees {n : Nat} {r : Reader α} {input : Input} {s : Supply}
    (taken : (r input s.all).rest.length ≤ s.stream.length) :
    Agrees n (lift r input s) (r input s.all) := by
  have empty {rest : List Token} (short : rest.length ≤ s.stream.length) :
      s.ahead rest = ⟨[], rest⟩ := by
    rw [Supply.ahead, Nat.sub_eq_zero_of_le short, List.take_zero, List.drop_zero]
  unfold lift
  generalize r input s.all = found at taken
  cases found with
  | done a rest =>
    have left : s.ahead rest = ⟨[], rest⟩ := empty taken
    dsimp only
    rw [left]
    exact .done a (s := ⟨[], rest⟩) (Nat.zero_le n)
  | failed e rest =>
    have left : s.ahead rest = ⟨[], rest⟩ := empty taken
    dsimp only
    rw [left]
    exact .failed e rest

namespace Mirrors

variable {l m n : Nat} {x : Supplied α} {r : Reader α}

/-! ### Rules -/

theorem pure (a : α) : Mirrors n n (Pure.pure a) (Pure.pure a) :=
  fun _ _ few => .done a few

theorem bind {f : α → Supplied β} {g : α → Reader β} (first : Mirrors l m x r)
    (next : ∀ a, Mirrors m n (f a) (g a)) : Mirrors l n (x >>= f) (r >>= g) := by
  intro input s few
  have agrees := first input s few
  generalize read : x input s = read', found : r input s.all = found' at agrees
  cases agrees with
  | @done a s' few' =>
    rw [bind_of_done found]
    simp only [Bind.bind, read]
    exact next a input s' few'
  | failed e rest =>
    rw [bind_of_failed found]
    simp only [Bind.bind, read]
    exact .failed e rest

/-- A reader that puts nothing back, where nothing is in the queue. -/
theorem lift (taken : List Token) (blames : ∀ input n, Blames input n taken r Any) :
    Mirrors 0 n (Supplied.lift r) r := by
  rintro input ⟨queue, stream⟩ few
  obtain rfl := List.length_eq_zero_iff.mp (Nat.le_zero.mp few)
  exact lift_agrees (blames input _).length_rest_le

/-- A parenthesis that is asked for is taken, also from the queue. -/
theorem closing (place : String) : Mirrors 1 n (Supplied.lift (Reader.closing place))
    (Reader.closing place) := by
  intro input s few
  refine lift_agrees ?_
  have length : s.all.length = s.queue.length + s.stream.length := List.length_append
  have ended : Blames input s.all.length [] (Reader.closing place) Any := .closing place
  have front := ended.length_rest_le
  cases tokens : s.all with
  | nil =>
    rw [tokens] at front
    exact Nat.le_trans front (Nat.zero_le _)
  | cons t ts =>
    have rest : (Reader.closing place input (t :: ts)).rest = ts := by
      show Outcome.rest ((if t.lexeme = .closing then _ else _ : Reader Token) input ts) = ts
      split <;> rfl
    rw [rest]
    rw [tokens, List.length_cons] at length
    omega

/-- The next token is taken here, and only looked at there. -/
theorem next_peek {place : Place} {f : Token → Supplied α} {g : Token → Reader α}
    (rest : ∀ t input ts, Agrees n (f t input ⟨[], ts⟩) (g t input (t :: ts))) :
    Mirrors 0 n (Supplied.lift (Reader.next place) >>= f) (Reader.peek place >>= g) := by
  rintro input ⟨queue, stream⟩ few
  obtain rfl := List.length_eq_zero_iff.mp (Nat.le_zero.mp few)
  cases stream with
  | nil =>
    obtain ⟨e, ended⟩ : ∃ e, (endOfInput place : Reader Token) input [] = .failed e [] := by
      unfold endOfInput
      split <;> exact ⟨_, rfl⟩
    have taken : Supplied.lift (Reader.next place) input ⟨[], []⟩ = (.error e, ⟨[], []⟩) := by
      simp [Supplied.lift, Supply.all, Supply.ahead, Reader.next, ended]
    have seen : Reader.peek place input [] = .failed e [] := ended
    show Agrees n ((Supplied.lift (Reader.next place) >>= f) input ⟨[], []⟩)
      ((Reader.peek place >>= g) input [])
    rw [bind_of_failed seen]
    simp only [Bind.bind, taken]
    exact .failed e []
  | cons t ts =>
    have taken : Supplied.lift (Reader.next place) input ⟨[], t :: ts⟩ = (.ok t, ⟨[], ts⟩) := by
      simp [Supplied.lift, Supply.all, Supply.ahead, Reader.next]
    have seen : Reader.peek place input (t :: ts) = .done t (t :: ts) := rfl
    show Agrees n ((Supplied.lift (Reader.next place) >>= f) input ⟨[], t :: ts⟩)
      ((Reader.peek place >>= g) input (t :: ts))
    rw [bind_of_done seen]
    simp only [Bind.bind, taken]
    exact rest t input ts

/-! ### Commands -/

theorem optionalNumeral (word : String) (default : Nat) :
    Mirrors 0 1 (Supplied.optionalNumeral word default) (Reader.optionalNumeral word default) := by
  refine next_peek fun t input ts => ?_
  by_cases closes : t.lexeme = .closing
  · rw [if_pos closes, if_pos closes]
    exact .done default (s := ⟨[t], ts⟩) (Nat.le_refl 1)
  · rw [if_neg closes, if_neg closes]
    exact lift [t] (fun _ _ => .numeralOf List.mem_cons_self) input ⟨[], ts⟩ (Nat.le_refl 0)

theorem setting (word : String) (optional : Bool) :
    Mirrors 0 1 (Supplied.setting word optional) (Reader.setting word optional) := by
  refine bind (lift [] fun _ _ => .keyword word) fun k => next_peek fun t input ts => ?_
  by_cases closes : t.lexeme = .closing
  · rw [if_pos closes, if_pos closes]
    split
    · exact .done (k, Setting.absent) (s := ⟨[t], ts⟩) (Nat.le_refl 1)
    · exact lift [t] (fun _ _ => .refuse _ List.mem_cons_self rfl) input ⟨[], ts⟩ (Nat.le_refl 0)
  · rw [if_neg closes, if_neg closes]
    have value : Mirrors 0 1 (Supplied.lift do attributeValue (termOf (← remaining)) t)
        (do attributeValue (termOf (← remaining)) t) :=
      lift [t] fun _ _ => .remaining_bind fun bound _ =>
        .attributeValue (fun _ _ => .termOf bound) List.mem_cons_self
    have rest := bind value fun v => pure (n := 1) (k, Setting.term v)
    exact rest input ⟨[], ts⟩ (Nat.le_refl 0)

/-- The arguments of the commands, of which no more than a parenthesis is put back. -/
theorem arguments (word : String) :
    Option.Rel (Mirrors 0 1) (Supplied.arguments? word) (Reader.arguments? word) := by
  unfold Supplied.arguments?
  split
  · -- declare-sort
    exact .some (bind (lift [] fun _ _ => .symbol _) fun _ =>
      bind (optionalNumeral _ _) fun _ => pure _)
  · -- pop
    exact .some (bind (optionalNumeral _ _) fun _ => pure _)
  · -- push
    exact .some (bind (optionalNumeral _ _) fun _ => pure _)
  · -- set-info
    exact .some (bind (setting _ _) fun _ => pure _)
  · -- set-option
    exact .some (bind (setting _ _) fun _ => pure _)
  · cases is : Reader.arguments? word with
    | none => exact .none
    | some r => exact .some (lift [] fun _ _ => .arguments is)

theorem argumentsAt (name : Token) :
    Option.Rel (Mirrors 0 1) (Supplied.argumentsAt? name) (Reader.argumentsAt? name) := by
  unfold Supplied.argumentsAt? Reader.argumentsAt?
  cases name.lexeme with
  | quoted => exact .none
  | _ => exact arguments name.text

/-- **The next command is read without anything left in the queue.** -/
theorem command? : Mirrors 0 0 Supplied.command? Reader.command? := by
  refine bind (m := 0) (lift [] fun _ _ => .mono .next? fun _ _ _ => trivial) fun start? => ?_
  cases start? with
  | none => exact pure none
  | some start =>
    dsimp only
    split
    · refine bind (m := 0) (lift [] fun _ _ => .mono (.next _) fun _ _ _ => trivial) fun name => ?_
      have known := argumentsAt name
      generalize Supplied.argumentsAt? name = x?, Reader.argumentsAt? name = r? at known ⊢
      cases known with
      | none =>
        exact lift [name] fun _ _ => .of_failed (fun _ => rfl) fun _ =>
          .unknownCommand name List.mem_cons_self
      | some mirrors => exact bind mirrors fun c => bind (closing _) fun _ => pure _
    · exact lift [start] fun _ _ => .refuse _ List.mem_cons_self rfl

end Mirrors

end Supplied

/-! ## What a command takes -/

/-- What is blamed on tokens is no malformed quoted symbol, so that only their end is. -/
theorem Blamed.broken {input : Input} {taken rest : List Token} {cause : Cause} {pos : Pos}
    (blamed : Blamed input taken rest (.malformed cause pos)) (own : cause.ofSymbol = true) :
    rest = [] ∧ input.malformed? = some (.malformed cause pos) := by
  cases blamed with
  | malformed ends last => exact ⟨last, ends⟩
  | incomplete => cases own
  | tokens cause first more other =>
    rw [other] at own
    cases own

/-- Something was taken, unless nothing is left. -/
theorem Blamed.taken_or_last {input : Input} {taken rest : List Token} {e : Error}
    (blamed : Blamed input taken rest e) : taken ≠ [] ∨ rest = [] := by
  cases blamed with
  | unknownCommand name is => exact .inl (List.ne_nil_of_mem is)
  | malformed _ last => exact .inr last
  | incomplete _ _ last => exact .inr last
  | tokens cause first more _ run =>
    obtain ⟨before, after, rfl⟩ := run
    exact .inl (List.ne_nil_of_mem (a := first) (by simp))

/-- The malformed quoted symbol that comes next is reported. -/
theorem command_at_broken {input : Input} {e : Error} (ends : input.malformed? = some e) :
    command? input [] = .failed e [] := by
  have broken : next? input [] = .failed e [] := by rw [next?, ends]
  exact bind_of_failed broken

/-- **A command takes tokens from the front**, one at least where there are some. -/
theorem exists_taken_of_command (input : Input) {ts : List Token} (some : ts ≠ []) :
    ∃ t more, ts = t :: more ++ (command? input ts).rest := by
  have blames : Blames input ts.length [] command? Any := .command?
  have front {taken rest : List Token} (split : ts = taken ++ rest) (any : taken ≠ []) :
      ∃ t more, ts = t :: more ++ rest := by
    obtain ⟨t, more, rfl⟩ := List.exists_cons_of_ne_nil any
    exact ⟨t, more, split⟩
  cases found : command? input ts with
  | failed e rest =>
    obtain ⟨taken, split, blamed⟩ := blames.failed ts rest e (Nat.le_refl _) found
    rcases blamed.taken_or_last with any | rfl
    · exact front split any
    · exact front split (by rintro rfl; exact some split)
  | done c? rest =>
    obtain ⟨taken, split, -⟩ := blames.done ts rest c? (Nat.le_refl _) found
    cases c? with
    | none => exact absurd (ended_of_command found).1 some
    | some c =>
      refine front split ?_
      rintro rfl
      have shorter := length_lt_of_command found
      rw [split, List.nil_append] at shorter
      exact absurd shorter (Nat.lt_irrefl _)

end SmtSession.Reader

namespace SmtSession

/-! ## Asking for commands -/

namespace Script

variable {s : Script}

theorem after_add (s : Script) (n m : Nat) : s.after (n + m) = (s.after n).after m := by
  induction m with
  | zero => rfl
  | succ m ih =>
    rw [Nat.add_succ, after, ih]
    rfl

theorem next_eq (s : Script) :
    s.next = (match Reader.command? s.input s.pending with
      | .done c _ => .ok c
      | .failed e _ => .error e, ⟨s.input, (Reader.command? s.input s.pending).rest⟩) := by
  unfold next
  cases Reader.command? s.input s.pending <;> rfl

/-- **When no tokens are left, the answer stays the same.** -/
theorem next_of_none (last : s.pending = []) : s.next.2 = s := by
  obtain ⟨input, pending⟩ := s
  obtain rfl : pending = [] := last
  rw [next_eq]
  show Script.mk input (Reader.command? input []).rest = ⟨input, []⟩
  cases ends : input.malformed? with
  | none => rw [Reader.command_at_end ends, Reader.Outcome.rest]
  | some e => rw [Reader.command_at_broken ends, Reader.Outcome.rest]

theorem after_of_none (last : s.pending = []) (n : Nat) : s.after n = s := by
  induction n with
  | zero => rfl
  | succ n ih => rw [after, ih, next_of_none last]

theorem next_at_end (last : s.pending = []) (ends : s.input.malformed? = none) :
    s.next.1 = .ok none := by
  rw [next_eq, last, Reader.command_at_end ends]

theorem next_at_broken {e : Reader.Error} (last : s.pending = [])
    (ends : s.input.malformed? = some e) : s.next.1 = .error e := by
  rw [next_eq, last, Reader.command_at_broken ends]

/-- After a malformed quoted symbol was reported, nothing but it is left. -/
theorem broken_of_next {cause : Reader.Cause} {pos : Pos} (own : cause.ofSymbol = true)
    (refused : s.next.1 = .error (.malformed cause pos)) :
    s.next.2.pending = [] ∧ s.next.2.input.malformed? = some (.malformed cause pos) := by
  have blames : Reader.Blames s.input s.pending.length [] Reader.command? Reader.Any := .command?
  obtain ⟨found, left⟩ := failed_of_next refused
  obtain ⟨taken, -, blamed⟩ := blames.failed _ _ _ (Nat.le_refl _) found
  rw [left]
  exact blamed.broken own

/-- **A malformed quoted symbol is reported for good.** -/
theorem next_after_broken {cause : Reader.Cause} {pos : Pos} (own : cause.ofSymbol = true)
    (refused : s.next.1 = .error (.malformed cause pos)) (n : Nat) :
    (s.after n).next.1 = .error (.malformed cause pos) := by
  cases n with
  | zero => exact refused
  | succ n =>
    obtain ⟨last, ends⟩ := broken_of_next own refused
    rw [Nat.add_comm, after_add]
    show (s.next.2.after n).next.1 = _
    rw [after_of_none last]
    exact next_at_broken last ends

/-- **The end is reached** with no more calls than there are tokens, and one. -/
theorem exists_end (ends : s.input.malformed? = none) :
    ∃ n ≤ s.pending.length, (s.after n).next.1 = .ok none := by
  generalize many : s.pending.length = length
  induction length using Nat.strongRecOn generalizing s with
  | ind length ih =>
    by_cases last : s.pending = []
    · exact ⟨0, Nat.zero_le _, next_at_end last ends⟩
    · obtain ⟨t, more, split⟩ := Reader.exists_taken_of_command s.input last
      have left : s.next.2 = ⟨s.input, (Reader.command? s.input s.pending).rest⟩ := by rw [next_eq]
      have fewer : s.next.2.pending.length < length := by
        have lengths := congrArg List.length split
        rw [List.length_append, List.length_cons] at lengths
        rw [left, ← many, lengths]
        dsimp only
        omega
      obtain ⟨n, few, none⟩ := ih _ fewer (s := s.next.2) (left ▸ ends) rfl
      refine ⟨1 + n, by omega, ?_⟩
      rw [after_add]
      exact none

end Script

namespace SuppliedScript

/-- Nothing was put back. -/
def ofScript (s : Script) : SuppliedScript :=
  ⟨s.input, ⟨[], s.pending⟩⟩

/-- **The next command is the one that is read without a queue**, and the queue stays empty. -/
theorem next_ofScript (s : Script) : (ofScript s).next = (s.next.1, ofScript s.next.2) := by
  have agrees : Reader.Supplied.Agrees 0 (Reader.Supplied.command? s.input ⟨[], s.pending⟩)
      (Reader.command? s.input s.pending) := Reader.Supplied.Mirrors.command? _ _ (Nat.le_refl 0)
  rw [Script.next_eq, SuppliedScript.next, ofScript, ofScript]
  generalize Reader.Supplied.command? s.input ⟨[], s.pending⟩ = read,
    Reader.command? s.input s.pending = found at agrees ⊢
  cases agrees with
  | @done c? supply few =>
    obtain ⟨queue, stream⟩ := supply
    obtain rfl := List.length_eq_zero_iff.mp (Nat.le_zero.mp few)
    rfl
  | failed e rest => rfl

theorem after_ofScript (s : Script) (n : Nat) : (ofScript s).after n = ofScript (s.after n) := by
  induction n with
  | zero => rfl
  | succ n ih => rw [after, ih, next_ofScript, Script.after]

/-- **What asking for one more command comes to.** -/
inductive Proceeds (s : SuppliedScript) : Prop
  /-- There is none, and there is none whenever one is asked for again. -/
  | ended (none : ∀ n, (s.after n).next.1 = .ok none)
  /-- One more token of the stream is taken at least. -/
  | taken (t : Token) (more : List Token)
    (split : s.supply.stream = t :: more ++ s.next.2.supply.stream)
  /-- A malformed quoted symbol is reported and no token is taken. -/
  | stuck (cause : Reader.Cause) (pos : Pos) (own : cause.ofSymbol = true)
    (refused : s.next.1 = .error (.malformed cause pos))
    (same : s.next.2.supply.stream = s.supply.stream)

theorem ofScript_proceeds (s : Script) : (ofScript s).Proceeds := by
  by_cases last : s.pending = []
  · cases ends : s.input.malformed? with
    | none =>
      refine .ended fun n => ?_
      rw [after_ofScript, next_ofScript, Script.after_of_none last]
      exact Script.next_at_end last ends
    | some e =>
      obtain ⟨cause, pos, rfl, own⟩ : ∃ cause pos, e = .malformed cause pos ∧
          cause.ofSymbol = true := by
        unfold Reader.Input.malformed? at ends
        split at ends <;> cases ends <;> exact ⟨_, _, rfl, rfl⟩
      refine .stuck cause pos own ?_ ?_
      · rw [next_ofScript]
        exact Script.next_at_broken last ends
      · rw [next_ofScript, Script.next_of_none last]
  · obtain ⟨t, more, split⟩ := Reader.exists_taken_of_command s.input last
    refine .taken t more ?_
    rw [next_ofScript, Script.next_eq]
    exact split

end SuppliedScript

/-- What it is for the commands of a text to be asked for, also after errors. -/
structure Source.Proceeds (source : Source) : Prop where
  /-- No token that was put back is left. -/
  queue : ∀ n, ((SuppliedScript.ofSource source).after n).supply.queue = []
  /-- The answers are those of the reader that has no queue. -/
  answers : ∀ n, ((SuppliedScript.ofSource source).after n).next.1 =
    ((Script.ofSource source).after n).next.1
  proceeds : ∀ n, ((SuppliedScript.ofSource source).after n).Proceeds
  /-- A malformed quoted symbol is reported again, with the same position. -/
  again : ∀ n m cause pos, cause.ofSymbol = true →
    ((SuppliedScript.ofSource source).after n).next.1 = .error (.malformed cause pos) →
    ((SuppliedScript.ofSource source).after (n + m)).next.1 = .error (.malformed cause pos)
  /-- If there is none, the end is reached with no more calls than there are tokens, and one. -/
  ends : source.input.malformed? = none →
    ∃ n ≤ source.tokenize.list.length,
      ((SuppliedScript.ofSource source).after n).next.1 = .ok none

/-- **Whoever goes on after errors comes to the end**, or to a malformed quoted symbol. -/
theorem Source.commands_proceed (source : Source) : source.Proceeds := by
  have here (n : Nat) : (SuppliedScript.ofSource source).after n =
      .ofScript ((Script.ofSource source).after n) :=
    SuppliedScript.after_ofScript (Script.ofSource source) n
  constructor
  case queue =>
    intro n
    rw [here]
    rfl
  case answers =>
    intro n
    rw [here, SuppliedScript.next_ofScript]
  case proceeds =>
    intro n
    rw [here]
    exact SuppliedScript.ofScript_proceeds _
  case again =>
    intro n m cause pos own refused
    rw [here, SuppliedScript.next_ofScript] at refused ⊢
    rw [Script.after_add]
    exact Script.next_after_broken own refused m
  case ends =>
    intro ends
    obtain ⟨n, few, none⟩ := Script.exists_end (s := .ofSource source) ends
    refine ⟨n, few, ?_⟩
    rw [here, SuppliedScript.next_ofScript]
    exact none

end SmtSession
