import SmtSession.Proofs.Reader.Spelling

/-!
# Readers in front of lexemes

**A reader reads** some lexemes in front of others when, given tokens with all of
these lexemes, it takes exactly those of the first and gives a value. `Reads` says
so, together with what holds of the value; the ranges of the tokens play no part.
What follows is a parameter because some readers look one token ahead.

The rules here take a reader apart as it is put together: `bind` splits the
lexemes, `next_bind` takes one, `silent_bind` takes none. `until_reads` is the rule
of every loop up to a closing parenthesis.
-/

namespace SmtSession.Reader

/-- From tokens with the lexemes `ls`, in front of those with the lexemes `after`,
the reader takes the first ones and gives a value. -/
def Reads (r : Reader α) (ls after : List Lexeme) (P : α → Prop) : Prop :=
  ∀ (input : Input) (ts rest : List Token), ts.map Token.lexeme = ls →
    rest.map Token.lexeme = after → ∃ a, r input (ts ++ rest) = .done a rest ∧ P a

/-- The reader that starts with a token reads these lexemes, of which the first is
that of the token and no closing parenthesis. -/
def ReadsAt (item : Token → Reader α) (ls after : List Lexeme) (P : α → Prop) : Prop :=
  ∃ l ls', ls = l :: ls' ∧ l ≠ .closing ∧ ∀ t : Token, t.lexeme = l → Reads (item t) ls' after P

theorem opening_ne_closing : Lexeme.opening ≠ .closing := by decide

/-- A reader that gives a value hands it on. -/
theorem bind_of_done {r : Reader α} {f : α → Reader β} {input : Input} {ts rest : List Token}
    {a : α} (done : r input ts = .done a rest) : (r >>= f) input ts = f a input rest := by
  simp only [bind, done]

theorem bind_of_failed {r : Reader α} {f : α → Reader β} {input : Input} {ts rest : List Token}
    {e : Error} (failed : r input ts = .failed e rest) : (r >>= f) input ts = .failed e rest := by
  simp only [bind, failed]

/-- A value behind another reader is read from what that one left. -/
theorem done_of_bind {r : Reader α} {f : α → Reader β} {input : Input} {ts left : List Token}
    {b : β} (done : (r >>= f) input ts = .done b left) :
    ∃ a middle, r input ts = .done a middle ∧ f a input middle = .done b left := by
  cases first : r input ts with
  | failed e middle =>
    rw [bind_of_failed first] at done
    cases done
  | done a middle => exact ⟨a, middle, rfl, (bind_of_done first).symm.trans done⟩

/-- A reader behind which nothing may be left takes all tokens, and they end well. -/
theorem done_of_finished {r : Reader α} {input : Input} {ts rest : List Token} {a : α}
    (whole : (do let a ← r; finished; pure a : Reader α) input ts = .done a rest) :
    r input ts = .done a [] ∧ input.malformed? = none := by
  cases first : r input ts with
  | failed e left =>
    rw [bind_of_failed first] at whole
    cases whole
  | done a' left =>
    rw [bind_of_done first] at whole
    cases left with
    | cons t left => cases whole
    | nil =>
      cases ends : input.malformed? with
      | none =>
        have nothing : next? input [] = .done none [] := by rw [next?, ends]
        have no_more : finished input [] = .done () [] := bind_of_done nothing
        rw [bind_of_done no_more] at whole
        cases whole
        exact ⟨rfl, rfl⟩
      | some e =>
        have broken : next? input [] = .failed e [] := by rw [next?, ends]
        have fails : finished input [] = .failed e [] := bind_of_failed broken
        rw [bind_of_failed fails] at whole
        cases whole

/-- What is read of a whole source takes all its tokens, and they end well. -/
theorem done_of_readAll {r : Reader α} {source : Source} {a : α}
    (read : readAll r source = .ok a) :
    r ⟨source, source.tokenize.ending⟩ source.tokenize.list = .done a [] ∧
      (⟨source, source.tokenize.ending⟩ : Input).malformed? = none := by
  cases whole : (do let a ← r; finished; pure a : Reader α) ⟨source, source.tokenize.ending⟩
      source.tokenize.list with
  | failed e rest =>
    rw [readAll, whole] at read
    cases read
  | done a' rest =>
    rw [readAll, whole] at read
    cases read
    exact done_of_finished whole

namespace Reads

variable {ls ls' after : List Lexeme} {l : Lexeme}

/-! ## Rules -/

theorem pure {a : α} {P : α → Prop} (holds : P a) : Reads (Pure.pure a) [] after P := by
  intro input ts rest none _
  rw [List.map_eq_nil_iff] at none
  subst none
  exact ⟨a, rfl, holds⟩

theorem bind {r : Reader α} {f : α → Reader β} {P : α → Prop} {Q : β → Prop}
    (first : Reads r ls (ls' ++ after) P) (next : ∀ a, P a → Reads (f a) ls' after Q) :
    Reads (r >>= f) (ls ++ ls') after Q := by
  intro input ts rest here behind
  obtain ⟨us, vs, rfl, us_lexemes, vs_lexemes⟩ := List.map_eq_append_iff.mp here
  obtain ⟨a, done, holds⟩ := first input us (vs ++ rest) us_lexemes (by
    rw [List.map_append, vs_lexemes, behind])
  obtain ⟨b, done', holds'⟩ := next a holds input vs rest vs_lexemes behind
  rw [List.append_assoc]
  exact ⟨b, (bind_of_done done).trans done', holds'⟩

theorem mono {r : Reader α} {P Q : α → Prop} (reads : Reads r ls after P)
    (implies : ∀ a, P a → Q a) : Reads r ls after Q := by
  intro input ts rest here behind
  obtain ⟨a, done, holds⟩ := reads input ts rest here behind
  exact ⟨a, done, implies a holds⟩

/-- A reader that takes nothing, and then another one. -/
theorem silent_bind {r : Reader α} {f : α → Reader β} {P : α → Prop} {Q : β → Prop}
    (first : Reads r [] (ls ++ after) P) (next : ∀ a, P a → Reads (f a) ls after Q) :
    Reads (r >>= f) ls after Q :=
  bind first next

/-- The last reader of several takes all that is left. -/
theorem last_bind {r : Reader α} {f : α → Reader β} {P : α → Prop} {Q : β → Prop}
    (first : Reads r ls after P) (next : ∀ a, P a → Reads (f a) [] after Q) :
    Reads (r >>= f) ls after Q := by
  have both : Reads (r >>= f) (ls ++ []) after Q := bind first next
  rwa [List.append_nil] at both

/-- A reader that takes one lexeme, and then another one. -/
theorem one_bind {r : Reader α} {f : α → Reader β} {P : α → Prop} {Q : β → Prop}
    (first : Reads r [l] (ls ++ after) P) (next : ∀ a, P a → Reads (f a) ls after Q) :
    Reads (r >>= f) (l :: ls) after Q :=
  bind first next

/-! ## Single tokens -/

theorem next (place : Place) : Reads (Reader.next place) [l] after fun t => t.lexeme = l := by
  intro input ts rest here _
  obtain ⟨t, rfl, is⟩ : ∃ t, ts = [t] ∧ t.lexeme = l := by simpa using here
  exact ⟨t, rfl, is⟩

theorem next_bind {place : Place} {f : Token → Reader α} {P : α → Prop}
    (rest : ∀ t : Token, t.lexeme = l → Reads (f t) ls after P) :
    Reads (Reader.next place >>= f) (l :: ls) after P :=
  one_bind (next place) rest

/-- Looking at the next token takes nothing. -/
theorem peek_bind {place : Place} {f : Token → Reader α} {P : α → Prop}
    (some : ls ++ after = l :: ls') (rest : ∀ t : Token, t.lexeme = l → Reads (f t) ls after P) :
    Reads (Reader.peek place >>= f) ls after P := by
  refine silent_bind (P := fun t => t.lexeme = l) (fun input ts more none behind => ?_) rest
  rw [List.map_eq_nil_iff] at none
  subst none
  obtain ⟨t, us, rfl, is, _⟩ := List.map_eq_cons_iff.mp (behind.trans some)
  exact ⟨t, rfl, is⟩

/-- Counting the tokens left takes nothing. -/
theorem remaining_bind {f : Nat → Reader α} {P : α → Prop}
    (rest : Reads (f (ls.length + after.length)) ls after P) :
    Reads (Reader.remaining >>= f) ls after P := by
  refine silent_bind (P := fun n => n = ls.length + after.length)
    (fun input ts more none behind => ?_) fun n is => is ▸ rest
  rw [List.map_eq_nil_iff] at none
  subst none
  refine ⟨_, rfl, ?_⟩
  rw [List.nil_append, ← List.length_append, ← behind, List.length_map]

/-- Working out a range takes nothing. -/
theorem range_bind {start stop : Nat} {f : Pos → Reader α} {P : α → Prop}
    (rest : ∀ pos, Reads (f pos) ls after P) :
    Reads (Reader.range start stop >>= f) ls after P := by
  refine silent_bind (P := fun _ => True) (fun input ts more none _ => ?_) fun pos _ => rest pos
  rw [List.map_eq_nil_iff] at none
  subst none
  exact ⟨_, rfl, trivial⟩

theorem posOf_bind {t : Token} {f : Pos → Reader α} {P : α → Prop}
    (rest : ∀ pos, Reads (f pos) ls after P) : Reads (posOf t >>= f) ls after P :=
  range_bind rest

theorem span_bind {first last : Token} {f : Pos → Reader α} {P : α → Prop}
    (rest : ∀ pos, Reads (f pos) ls after P) : Reads (span first last >>= f) ls after P :=
  range_bind rest

theorem opening_bind {place : String} {f : Token → Reader α} {P : α → Prop}
    (rest : ∀ t : Token, t.lexeme = .opening → Reads (f t) ls after P) :
    Reads (Reader.opening place >>= f) (.opening :: ls) after P := by
  refine one_bind (P := fun t => t.lexeme = .opening) (next_bind fun t is => ?_) rest
  rw [if_pos is]
  exact pure is

theorem closing_bind {place : String} {f : Token → Reader α} {P : α → Prop}
    (rest : ∀ t : Token, t.lexeme = .closing → Reads (f t) ls after P) :
    Reads (Reader.closing place >>= f) (.closing :: ls) after P := by
  refine one_bind (P := fun t => t.lexeme = .closing) (next_bind fun t is => ?_) rest
  rw [if_pos is]
  exact pure is

end Reads

/-! ## Items -/

/-- The next token starts what is read. -/
theorem ReadsAt.next_bind {item : Token → Reader α} {place : Place} {f : α → Reader β}
    {ls ls' after : List Lexeme} {P : α → Prop} {Q : β → Prop}
    (reads : ReadsAt item ls (ls' ++ after) P) (rest : ∀ a, P a → Reads (f a) ls' after Q) :
    Reads (Reader.next place >>= fun t => item t >>= f) (ls ++ ls') after Q := by
  obtain ⟨l, ls, rfl, -, starts⟩ := reads
  exact Reads.next_bind fun t is => Reads.bind (starts t is) rest

/-- The next token starts what is read, and nothing else is read. -/
theorem ReadsAt.next {item : Token → Reader α} {place : Place} {ls after : List Lexeme}
    {P : α → Prop} (reads : ReadsAt item ls after P) :
    Reads (Reader.next place >>= item) ls after P := by
  obtain ⟨l, ls, rfl, -, starts⟩ := reads
  exact Reads.next_bind starts

/-- What is read goes on without more lexemes. -/
theorem ReadsAt.bind {item : Token → Reader α} {f : α → Reader β} {ls after : List Lexeme}
    {P : α → Prop} {Q : β → Prop} (reads : ReadsAt item ls after P)
    (rest : ∀ a, P a → Reads (f a) [] after Q) : ReadsAt (fun t => item t >>= f) ls after Q := by
  obtain ⟨l, ls, rfl, other, starts⟩ := reads
  exact ⟨l, ls, rfl, other, fun t is => Reads.last_bind (starts t is) rest⟩

/-- A reader with a bound is given the number of tokens left. -/
theorem ReadsAt.bounded {item : Nat → Token → Reader α} {ls after : List Lexeme} {P : α → Prop}
    (reads : ∀ bound, ls.length + after.length ≤ bound + 1 → ReadsAt (item bound) ls after P) :
    ReadsAt (fun t => remaining >>= fun bound => item bound t) ls after P := by
  obtain ⟨l, ls', rfl, other, -⟩ := reads _ (Nat.le_succ _)
  refine ⟨l, ls', rfl, other, fun t is => Reads.remaining_bind ?_⟩
  obtain ⟨l, ls', same, -, starts⟩ := reads (ls'.length + after.length) (by
    simp only [List.length_cons]
    omega)
  cases same
  exact starts t is

/-- The tokens up to a closing parenthesis are fewer than those left. -/
theorem length_lt_closed (ls after : List Lexeme) :
    ls.length < (ls ++ [Lexeme.closing]).length + after.length := by
  rw [List.length_append, List.length_singleton]
  omega

/-- Items up to a closing parenthesis, one behind the other. Each is read in front
of those that follow it, and the bound covers them all. What is the same of the
items and of the values that they spell is the same of the two lists. -/
theorem until_reads {place : String} {item : Token → Reader α} {f : α → γ} {g : β → γ}
    {spells : β → List Lexeme → Prop} {after : List Lexeme} {bs : List β} {ls : List Lexeme}
    (spelled : SpelledAll spells bs ls) (bound : Nat) (enough : ls.length < bound)
    (each : ∀ b ∈ bs, ∀ cs here later, spells b here → SpelledAll spells cs later →
      here.length + later.length ≤ ls.length →
      ReadsAt item here (later ++ .closing :: after) fun a => f a = g b) :
    Reads (untilClosing place item bound) (ls ++ [.closing]) after fun (as, close) =>
      as.map f = bs.map g ∧ close.lexeme = .closing := by
  induction bs generalizing ls bound with
  | nil =>
    cases spelled
    obtain ⟨bound, rfl⟩ : ∃ n, bound = n + 1 := ⟨bound - 1, by omega⟩
    refine Reads.next_bind ?_
    intro t is
    rw [if_pos is]
    exact Reads.pure ⟨rfl, is⟩
  | cons b bs ih =>
    obtain ⟨here, later, rfl, spelled_here, spelled⟩ := spelled
    obtain ⟨bound, rfl⟩ : ∃ n, bound = n + 1 := ⟨bound - 1, by omega⟩
    have first := each b List.mem_cons_self bs here later spelled_here spelled (by simp)
    obtain ⟨l, ls', rfl, other, starts⟩ := first
    rw [List.append_assoc]
    refine Reads.next_bind ?_
    intro t is
    rw [if_neg (is ▸ other)]
    simp only [List.cons_append, List.length_cons, List.length_append] at enough each
    have after_later : later ++ .closing :: after = later ++ [.closing] ++ after := by simp
    refine Reads.bind (after_later ▸ starts t is) ?_
    intro a holds
    have more := ih spelled bound (by omega) fun c is cs here' later' spells spelled fits =>
      each c (List.mem_cons_of_mem _ is) cs here' later' spells spelled (by omega)
    refine Reads.last_bind more ?_
    rintro ⟨as, close⟩ ⟨all, closes⟩
    refine Reads.pure ⟨?_, closes⟩
    rw [List.map_cons, List.map_cons, holds, all]

/-- How an item is spelled that is one lexeme. -/
def SpelledOne (spells : α → Lexeme → Prop) (a : α) (ls : List Lexeme) : Prop :=
  ∃ l, ls = [l] ∧ spells a l

theorem spelledEach_iff {spells : α → Lexeme → Prop} {as : List α} {ls : List Lexeme} :
    SpelledEach spells as ls ↔ SpelledAll (SpelledOne spells) as ls := by
  induction as generalizing ls with
  | nil => exact Iff.rfl
  | cons a as ih =>
    constructor
    · rintro ⟨l, later, rfl, here, more⟩
      exact ⟨[l], later, rfl, ⟨l, rfl, here⟩, ih.mp more⟩
    · rintro ⟨_, later, rfl, ⟨l, rfl, here⟩, more⟩
      exact ⟨l, later, rfl, here, ih.mpr more⟩

/-- The same where each item is one lexeme. -/
theorem until_each_reads {place : String} {item : Token → Reader α} {f : α → γ} {g : β → γ}
    {spells : β → Lexeme → Prop} {after : List Lexeme} {bs : List β} {ls : List Lexeme}
    (spelled : SpelledEach spells bs ls) (bound : Nat) (enough : ls.length < bound)
    (each : ∀ b ∈ bs, ∀ (l : Lexeme) (t : Token), spells b l → t.lexeme = l →
      l ≠ .closing ∧ ∀ after, Reads (item t) [] after fun a => f a = g b) :
    Reads (untilClosing place item bound) (ls ++ [.closing]) after fun (as, close) =>
      as.map f = bs.map g ∧ close.lexeme = .closing := by
  refine until_reads (spelledEach_iff.mp spelled) bound enough ?_
  rintro b is cs here later ⟨l, same, spells⟩ _ _
  subst same
  have other := (each b is l ⟨l, 0, 0⟩ spells rfl).1
  exact ⟨l, [], rfl, other, fun t same => (each b is l t spells same).2 _⟩

end SmtSession.Reader

namespace SmtSession

/-- What is computed of the commands of a text is computed of commands that were read. -/
theorem exists_of_readScript {source : Source} {f : List Command → α} {a : α}
    (computed : (readScript source).toOption.map f = some a) :
    ∃ cs, readScript source = .ok cs ∧ f cs = a := by
  cases read : readScript source with
  | error e =>
    rw [read] at computed
    cases computed
  | ok cs =>
    rw [read] at computed
    exact ⟨cs, rfl, Option.some.inj computed⟩

/-- What is read of a script is the next command of its tokens. -/
theorem Script.command_of_next {script : Script} {c? : Option Command}
    (read : script.next.1 = .ok c?) :
    Reader.command? script.input script.pending = .done c? script.next.2.pending ∧
      script.next.2 = ⟨script.input, script.next.2.pending⟩ := by
  rw [next] at read ⊢
  cases found : Reader.command? script.input script.pending with
  | failed e left =>
    rw [found] at read
    cases read
  | done c?' left =>
    rw [found] at read
    cases read
    exact ⟨rfl, rfl⟩

theorem Script.failed_of_next {script : Script} {e : Reader.Error}
    (refused : script.next.1 = .error e) :
    Reader.command? script.input script.pending = .failed e script.next.2.pending ∧
      script.next.2 = ⟨script.input, script.next.2.pending⟩ := by
  rw [next] at refused ⊢
  cases found : Reader.command? script.input script.pending with
  | done c? left =>
    rw [found] at refused
    cases refused
  | failed e' left =>
    rw [found] at refused
    cases refused
    exact ⟨rfl, rfl⟩

/-- What is computed to be refused is refused. -/
theorem eq_error_of_computed {x : Except Reader.Error α} {e : Reader.Error}
    (computed : (match x with | .ok _ => none | .error e => some e) = some e) : x = .error e := by
  cases x with
  | ok a => cases computed
  | error e' => rw [Option.some.inj computed]

end SmtSession
