import SmtSession.Proofs.Reader.Nodes
import SmtSession.Proofs.Reader.Terms
import SmtSession.Reader.Command

/-!
# What is read accounts for what was taken

**A reader that gives a value took its spelling**: the tokens that are gone stood in front,
and their lexemes spell the value. A term and a sort have the range from the first of these
tokens to the last, and so has each part of them with its own (`Located`). So nothing that was
taken is missing in what was read, the converse of what is read of a spelling.

`Takes` is a rule system for readers, with one rule for each way to build one. `termOf_takes`
is the induction over nested terms, and `commands_take` the one over a script.
-/

namespace SmtSession

/-- Items are spelled as what is made of them. -/
theorem SpelledEach.map {spells : α → Lexeme → Prop} {spells' : β → Lexeme → Prop} {f : α → β}
    (implies : ∀ a l, spells a l → spells' (f a) l) {as : List α} {ls : List Lexeme}
    (spelled : SpelledEach spells as ls) : SpelledEach spells' (as.map f) ls := by
  induction as generalizing ls with
  | nil => exact spelled
  | cons a as ih =>
    obtain ⟨l, later, rfl, here, more⟩ := spelled
    exact ⟨l, later, rfl, implies a l here, ih more⟩

namespace Reader

variable {input : Input}

/-- What the reader gives is in the relation with the tokens that it took from the front. -/
def Takes (input : Input) (r : Reader α) (Q : List Token → α → Prop) : Prop :=
  ∀ (ts rest : List Token) (a : α), r input ts = .done a rest →
    ∃ taken, ts = taken ++ rest ∧ Q taken a

/-- The reader takes no token, and what it gives has the property. -/
def TakesNone (input : Input) (r : Reader α) (P : α → Prop) : Prop :=
  Takes input r fun taken a => taken = [] ∧ P a

namespace Takes

variable {Q : List Token → α → Prop}

/-! ## Rules -/

theorem pure {a : α} (holds : Q [] a) : Takes input (Pure.pure a) Q := by
  intro ts rest b done
  cases done
  exact ⟨[], rfl, holds⟩

theorem bind {r : Reader α} {f : α → Reader β} {R : List Token → β → Prop}
    (first : Takes input r Q)
    (next : ∀ taken a, Q taken a → Takes input (f a) fun more b => R (taken ++ more) b) :
    Takes input (r >>= f) R := by
  intro ts rest b done
  cases found : r input ts with
  | failed e left =>
    rw [bind_of_failed found] at done
    cases done
  | done a middle =>
    rw [bind_of_done found] at done
    obtain ⟨taken, rfl, holds⟩ := first ts middle a found
    obtain ⟨more, rfl, holds'⟩ := next taken a holds middle rest b done
    exact ⟨taken ++ more, (List.append_assoc ..).symm, holds'⟩

theorem mono {r : Reader α} {R : List Token → α → Prop} (takes : Takes input r Q)
    (implies : ∀ taken a, Q taken a → R taken a) : Takes input r R := by
  intro ts rest a done
  obtain ⟨taken, split, holds⟩ := takes ts rest a done
  exact ⟨taken, split, implies taken a holds⟩

/-- The value of a reader, with something made of it. -/
theorem map {r : Reader α} {g : α → β} {R : List Token → β → Prop} (takes : Takes input r Q)
    (implies : ∀ taken a, Q taken a → R taken (g a)) :
    Takes input (r >>= fun a => Pure.pure (g a)) R := by
  refine bind takes fun taken a holds => pure ?_
  rw [List.append_nil]
  exact implies taken a holds

/-- A reader that takes nothing, and then another one. -/
theorem none_bind {r : Reader α} {f : α → Reader β} {P : α → Prop} {R : List Token → β → Prop}
    (first : TakesNone input r P) (next : ∀ a, P a → Takes input (f a) R) :
    Takes input (r >>= f) R := by
  refine bind first ?_
  rintro _ a ⟨rfl, holds⟩
  exact next a holds

/-- A reader behind which no more is taken. -/
theorem last_bind {r : Reader α} {f : α → Reader β} {R : List Token → β → Prop}
    (first : Takes input r Q) (next : ∀ taken a, Q taken a → TakesNone input (f a) (R taken)) :
    Takes input (r >>= f) R := by
  refine bind first fun taken a holds => mono (next taken a holds) ?_
  rintro _ b ⟨rfl, holds'⟩
  rw [List.append_nil]
  exact holds'

/-- A reader that gives no value takes anything. -/
theorem of_failed {r : Reader α} (fails : ∀ ts, ∃ e rest, r input ts = .failed e rest) :
    Takes input r Q := by
  intro ts rest a done
  obtain ⟨e, left, failed⟩ := fails ts
  rw [failed] at done
  cases done

theorem fail (e : Error) : Takes input (Reader.fail e : Reader α) Q :=
  of_failed fun ts => ⟨e, ts, rfl⟩

theorem refuse (cause : Cause) (t : Token) : Takes input (Reader.refuse cause t : Reader α) Q :=
  of_failed fun ts => ⟨_, ts, rfl⟩

theorem refuseSpan (cause : Cause) (first last : Token) :
    Takes input (Reader.refuseSpan cause first last : Reader α) Q :=
  of_failed fun ts => ⟨_, ts, rfl⟩

theorem endOfInput (place : Place) : Takes input (Reader.endOfInput place : Reader α) Q := by
  refine of_failed fun ts => ?_
  unfold Reader.endOfInput
  split
  · exact ⟨_, _, rfl⟩
  · exact ⟨_, _, rfl⟩

/-- A reader behind a token that takes no more of them. -/
theorem one {t : Token} {r : Reader α} {spells : α → Lexeme → Prop}
    (takes : TakesNone input r fun a => spells a t.lexeme) :
    Takes input r fun more a => SpelledOne spells a ((t :: more).map Token.lexeme) := by
  refine mono takes ?_
  rintro _ a ⟨rfl, holds⟩
  exact ⟨t.lexeme, rfl, holds⟩

/-! ## Single tokens -/

theorem next (place : Place) : Takes input (Reader.next place) fun taken t => taken = [t] := by
  intro ts rest t done
  cases ts with
  | nil =>
    have none : Takes input (Reader.endOfInput place) fun taken (t : Token) => taken = [t] :=
      endOfInput place
    exact none [] rest t done
  | cons u ts =>
    cases done
    exact ⟨[_], rfl, rfl⟩

theorem next_bind {place : Place} {f : Token → Reader α}
    (rest : ∀ t : Token, Takes input (f t) fun more a => Q (t :: more) a) :
    Takes input (Reader.next place >>= f) Q := by
  refine bind (next place) ?_
  rintro _ t rfl
  exact rest t

theorem next? : Takes input Reader.next? fun taken t? => taken = t?.toList := by
  intro ts rest t? done
  cases ts with
  | nil =>
    simp only [Reader.next?] at done
    split at done
    · cases done
      exact ⟨[], rfl, rfl⟩
    · cases done
  | cons t ts =>
    cases done
    exact ⟨[_], rfl, rfl⟩

theorem posOf_bind {t : Token} {f : Pos → Reader α}
    (rest : Takes input (f ⟨t.start, t.stop, some input.source⟩) Q) :
    Takes input (posOf t >>= f) Q :=
  rest

theorem span_bind {first last : Token} {f : Pos → Reader α}
    (rest : Takes input (f ⟨first.start, last.stop, some input.source⟩) Q) :
    Takes input (span first last >>= f) Q :=
  rest

theorem remaining_bind {f : Nat → Reader α} (rest : ∀ n, Takes input (f n) Q) :
    Takes input (Reader.remaining >>= f) Q :=
  fun ts left a done => rest ts.length ts left a done

theorem opening_bind {place : String} {f : Token → Reader α}
    (rest : ∀ t : Token, t.lexeme = .opening → Takes input (f t) fun more a => Q (t :: more) a) :
    Takes input (Reader.opening place >>= f) Q := by
  have one : Takes input (Reader.opening place) fun taken t =>
      taken = [t] ∧ t.lexeme = .opening := by
    refine next_bind fun t => ?_
    split
    · next is => exact pure ⟨rfl, is⟩
    · exact refuse _ _
  refine bind one ?_
  rintro _ t ⟨rfl, is⟩
  exact rest t is

theorem closing (place : String) : Takes input (Reader.closing place) fun taken t =>
    taken = [t] ∧ t.lexeme = .closing := by
  refine next_bind fun t => ?_
  split
  · next is => exact pure ⟨rfl, is⟩
  · exact refuse _ _

theorem closing_bind {place : String} {f : Token → Reader α}
    (rest : ∀ t : Token, t.lexeme = .closing → Takes input (f t) fun more a => Q (t :: more) a) :
    Takes input (Reader.closing place >>= f) Q := by
  refine bind (closing place) ?_
  rintro _ t ⟨rfl, is⟩
  exact rest t is

/-- What looks at the next token and then stops, or takes the token that it looked at. -/
theorem ahead {place place' : Place} {stops : Token → Prop} [DecidablePred stops]
    {last f : Token → Reader α} (none : ∀ t : Token, stops t → Takes input (last t) Q)
    (some : ∀ t : Token, ¬ stops t → Takes input (f t) fun more a => Q (t :: more) a) :
    Takes input (do
      let t ← Reader.peek place
      if stops t then last t else do f (← Reader.next place')) Q := by
  intro ts rest a done
  cases ts with
  | nil =>
    have fails : ∃ e left, Reader.peek place input [] = .failed e left := by
      unfold Reader.peek Reader.endOfInput
      dsimp only
      split
      · exact ⟨_, _, rfl⟩
      · exact ⟨_, _, rfl⟩
    obtain ⟨e, left, failed⟩ := fails
    rw [bind_of_failed failed] at done
    cases done
  | cons t ts =>
    have seen : Reader.peek place input (t :: ts) = .done t (t :: ts) := rfl
    rw [bind_of_done seen] at done
    split at done
    · next stop => exact none t stop (t :: ts) rest a done
    · next goes =>
      obtain ⟨taken, rfl, holds⟩ := some t goes ts rest a done
      exact ⟨t :: taken, rfl, holds⟩

/-- **Items up to a closing parenthesis** take their tokens, one behind the other, and the
parenthesis. -/
theorem untilClosing_each {place : String} {item : Token → Reader α}
    {P : α → List Token → Prop}
    (each : ∀ t : Token, t.lexeme ≠ .closing → Takes input (item t) fun more a => P a (t :: more))
    (bound : Nat) :
    Takes input (Reader.untilClosing place item bound) fun taken (as, close) =>
      ∃ inner, taken = inner ++ [close] ∧ close.lexeme = .closing ∧ TakenAll P as inner := by
  induction bound with
  | zero => exact endOfInput _
  | succ bound ih =>
    refine next_bind fun t => ?_
    split
    · next closes => exact pure ⟨[], rfl, closes, rfl⟩
    · next other =>
      refine bind (each t other) fun here a holds => map ih ?_
      rintro _ ⟨as, close⟩ ⟨inner, rfl, closes, all⟩
      exact ⟨t :: here ++ inner, by simp, closes, t :: here, inner, rfl, holds, all⟩

/-- The same for their spellings. -/
theorem untilClosing {place : String} {item : Token → Reader α}
    {spells : α → List Lexeme → Prop}
    (each : ∀ t : Token, t.lexeme ≠ .closing →
      Takes input (item t) fun more a => spells a ((t :: more).map Token.lexeme))
    (bound : Nat) :
    Takes input (Reader.untilClosing place item bound) fun taken (as, close) =>
      ∃ inner, taken = inner ++ [close] ∧ close.lexeme = .closing ∧
        SpelledAll spells as (inner.map Token.lexeme) := by
  refine mono (untilClosing_each (P := fun a ts => spells a (ts.map Token.lexeme)) each bound) ?_
  rintro _ ⟨as, close⟩ ⟨inner, split, closes, all⟩
  exact ⟨inner, split, closes, all.spelled fun _ _ spelled => spelled⟩

/-- The same where each item is one lexeme. -/
theorem untilClosing_one {place : String} {item : Token → Reader α} {spells : α → Lexeme → Prop}
    (each : ∀ t : Token, TakesNone input (item t) fun a => spells a t.lexeme) (bound : Nat) :
    Takes input (Reader.untilClosing place item bound) fun taken (as, close) =>
      ∃ inner, taken = inner ++ [close] ∧ close.lexeme = .closing ∧
        SpelledEach spells as (inner.map Token.lexeme) := by
  refine mono (untilClosing (fun t _ => one (each t)) bound) ?_
  rintro _ ⟨as, close⟩ ⟨inner, split, closes, all⟩
  exact ⟨inner, split, closes, spelledEach_iff.mpr all⟩

/-! ## Atoms -/

/-- What an atom says: what its lexeme spells, also where that is a reserved word. A
parenthesis counts as some symbol. -/
def AtomOf (l : Lexeme) (a : Term) : Prop :=
  a.Spelled [l] ∨ a.SpelledWord [l] ∨ (l = .opening ∨ l = .closing) ∧ ∃ s, a = .symbol s

theorem atom (t : Token) : TakesNone input (Reader.atom t) fun a =>
    AtomOf t.lexeme a ∧ a.pos = some ⟨t.start, t.stop, some input.source⟩ := by
  refine posOf_bind ?_
  split
  · next is => exact pure ⟨rfl, .inr (.inr ⟨.inl is, _, rfl⟩), rfl⟩
  · next is => exact pure ⟨rfl, .inr (.inr ⟨.inr is, _, rfl⟩), rfl⟩
  · next name is => exact pure ⟨rfl, .inr (.inl ⟨_, rfl, is ▸ rfl⟩), rfl⟩
  · next content is => exact pure ⟨rfl, .inl (is ▸ rfl), rfl⟩
  · next text is =>
    rw [is]
    split
    · next value class_ => exact pure ⟨rfl, .inl ⟨_, rfl, value, class_, rfl⟩, rfl⟩
    · next class_ => exact pure ⟨rfl, .inl ⟨rfl, class_⟩, rfl⟩
    · next digits class_ => exact pure ⟨rfl, .inl ⟨_, rfl, class_⟩, rfl⟩
    · next digits class_ => exact pure ⟨rfl, .inl ⟨_, rfl, class_⟩, rfl⟩
    · next class_ => exact pure ⟨rfl, .inl ⟨rfl, class_⟩, rfl⟩
    · exact fail _
    · next class_ => exact pure ⟨rfl, .inr (.inl ⟨_, rfl, rfl, class_⟩), rfl⟩

/-- A symbol that is no parenthesis has the name of its token. -/
theorem names_of_atom {l : Lexeme} {s : Symbol} (is : AtomOf l (.symbol s))
    (other : ¬ (l = .opening ∨ l = .closing)) : l.Names s.name := by
  rcases is with ⟨_, same, names, -⟩ | ⟨_, same, names⟩ | ⟨parenthesis, -⟩
  · cases same
    exact names
  · cases same
    exact names
  · exact absurd parenthesis other

/-- What is no symbol is spelled by its token. -/
theorem spelled_of_atom {l : Lexeme} {a : Term} (is : AtomOf l a) (other : ∀ s, a ≠ .symbol s) :
    a.Spelled [l] := by
  rcases is with spelled | word | ⟨-, s, same⟩
  · exact spelled
  · cases a with
    | symbol s => exact absurd rfl (other s)
    | _ => cases word
  · exact absurd same (other s)

theorem symbolOf (t : Token) : TakesNone input (Reader.symbolOf t) fun s =>
    t.lexeme.Names s.name ∧ s.pos = some ⟨t.start, t.stop, some input.source⟩ := by
  unfold Reader.symbolOf
  split
  · exact refuse _ _
  · next other =>
    refine none_bind (atom t) fun a ⟨is, ranged⟩ => ?_
    split
    · exact pure ⟨rfl, names_of_atom is other, ranged⟩
    · exact refuse _ _

/-- A name is located at its token. -/
theorem located_of_names {t : Token} {s : Symbol} (parameters : List String)
    (names : t.lexeme.Names s.name)
    (ranged : s.pos = some ⟨t.start, t.stop, some input.source⟩) :
    Located input parameters (.label (.symbol s)) [t] :=
  .leaf ⟨.inr ⟨t.lexeme, rfl, names⟩, ranged⟩ rfl

theorem symbol_bind {place : String} {f : Symbol → Reader α}
    (rest : ∀ (t : Token) (s : Symbol), t.lexeme.Names s.name →
      Located input [] (.label (.symbol s)) [t] → Takes input (f s) fun more a => Q (t :: more) a) :
    Takes input (Reader.symbol place >>= f) Q := by
  have one : Takes input (Reader.symbol place) fun taken s => ∃ t : Token, taken = [t] ∧
      t.lexeme.Names s.name ∧ Located input [] (.label (.symbol s)) [t] := by
    refine next_bind fun t => mono (symbolOf t) ?_
    rintro _ s ⟨rfl, names, ranged⟩
    exact ⟨t, rfl, names, located_of_names [] names ranged⟩
  refine bind one ?_
  rintro _ s ⟨t, rfl, names, located⟩
  exact rest t s names located

theorem keywordOf (t : Token) : TakesNone input (Reader.keywordOf t) fun k =>
    k.Spelled t.lexeme ∧ Located input [] (.label (.keyword k)) [t] := by
  unfold Reader.keywordOf
  split
  · exact refuse _ _
  · refine none_bind (atom t) fun a ⟨is, ranged⟩ => ?_
    split
    · next k =>
      have spelled := spelled_of_atom is nofun
      obtain ⟨same, -⟩ := List.cons.inj spelled.1
      exact pure ⟨rfl, ⟨same, same ▸ spelled.2⟩, .leaf ⟨.inl spelled, ranged⟩ rfl⟩
    · exact refuse _ _

theorem keyword_bind {place : String} {f : Keyword → Reader α}
    (rest : ∀ (t : Token) (k : Keyword), k.Spelled t.lexeme →
      Takes input (f k) fun more a => Q (t :: more) a) :
    Takes input (Reader.keyword place >>= f) Q := by
  have one : Takes input (Reader.keyword place) fun taken k =>
      ∃ t : Token, taken = [t] ∧ k.Spelled t.lexeme := by
    refine next_bind fun t => mono (keywordOf t) ?_
    rintro _ k ⟨rfl, spelled, -⟩
    exact ⟨t, rfl, spelled⟩
  refine bind one ?_
  rintro _ k ⟨t, rfl, spelled⟩
  exact rest t k spelled

theorem counts_of_numeral? {t : Token} {value : Nat} (is : numeral? t = some value) :
    t.lexeme.Counts value := by
  unfold numeral? at is
  split at is
  · next text plain =>
    rw [plain]
    split at is
    · next class_ =>
      cases is
      exact ⟨_, class_, rfl⟩
    · cases is
  · cases is

theorem numeralOf (t : Token) :
    TakesNone input (Reader.numeralOf t) fun n => t.lexeme.Counts n := by
  unfold Reader.numeralOf
  split
  · next value is => exact pure ⟨rfl, counts_of_numeral? is⟩
  · exact refuse _ _

/-! ## Sorts -/

theorem sortName (parameters : List String) (t : Token) :
    TakesNone input (Reader.sortName parameters t) fun σ =>
      Located input parameters (.sort σ) [t] := by
  refine none_bind (symbolOf t) ?_
  rintro s ⟨names, ranged⟩
  split
  · next bound => exact pure ⟨rfl, .leaf ⟨⟨_, rfl, names, bound⟩, ranged⟩ rfl⟩
  · next free =>
    split
    · next is =>
      refine pure ⟨rfl, .leaf ⟨⟨congrArg (fun l => [l]) is, ?_⟩, ranged⟩ rfl⟩
      rw [is] at names
      exact names.1 ▸ free
    · next other =>
      exact pure ⟨rfl, .leaf ⟨.inl ⟨rfl, rfl, _, rfl, names, free, other⟩, ranged⟩ rfl⟩

theorem indexedSort (parameters : List String) {start head : Token}
    (opens : start.lexeme = .opening) (word : head.lexeme = .plain "_") :
    Takes input (Reader.indexedSort start) fun more σ =>
      Located input parameters (.sort σ) (start :: head :: more) := by
  refine symbol_bind fun t s names _ => remaining_bind fun n => ?_
  refine last_bind (untilClosing_one numeralOf n) ?_
  rintro _ ⟨indices, close⟩ ⟨inner, rfl, closes, counted⟩
  dsimp only
  split
  · exact refuseSpan _ _ _
  · next some =>
    refine span_bind (pure ⟨rfl, .closed (head :: t :: inner) rfl opens closes rfl ?_ trivial⟩)
    refine .inr (.inr ⟨rfl, by simpa using some, t.lexeme, inner.map Token.lexeme, ?_, names, ?_⟩)
    · rw [← word]
      rfl
    · exact counted.map fun n l counts => ⟨n, rfl, counts⟩

/-- **A sort is located at the tokens that it takes**, with all the sorts in it. -/
theorem sortOf (parameters : List String) (bound : Nat) (t : Token) :
    Takes input (Reader.sortOf parameters bound t) fun more σ =>
      Located input parameters (.sort σ) (t :: more) := by
  have one (t : Token) : Takes input (Reader.sortName parameters t) fun more σ =>
      Located input parameters (.sort σ) (t :: more) := by
    refine mono (sortName parameters t) ?_
    rintro _ σ ⟨rfl, located⟩
    exact located
  induction bound generalizing t with
  | zero =>
    unfold Reader.sortOf
    split
    · exact one t
    · exact endOfInput _
  | succ bound ih =>
    unfold Reader.sortOf
    split
    · exact one t
    next other =>
    have opens : t.lexeme = .opening := Decidable.not_not.mp other
    refine next_bind fun head => ?_
    split
    · next word => exact indexedSort parameters opens word
    next plain =>
    refine none_bind (symbolOf head) ?_
    rintro s ⟨names, -⟩
    refine last_bind (untilClosing_each (fun t _ => ih t) bound) ?_
    rintro _ ⟨args, close⟩ ⟨inner, rfl, closes, all⟩
    dsimp only
    split
    · exact refuseSpan _ _ _
    · next some =>
      obtain ⟨spelled, strung⟩ := all.located
      refine span_bind (pure ⟨rfl, .closed (head :: inner) rfl opens closes rfl ?_ ?_⟩)
      · exact .inr (.inl ⟨by simpa using some, rfl, head.lexeme, inner.map Token.lexeme, rfl, names,
          plain, sorts_spelled.mpr spelled⟩)
      · exact strung.behind [head]

theorem sort_located (parameters : List String) : Takes input (Reader.sort parameters)
    fun taken σ => Located input parameters (.sort σ) taken :=
  next_bind fun t => remaining_bind fun n => sortOf parameters n t

theorem sort (parameters : List String) : Takes input (Reader.sort parameters) fun taken σ =>
    ∃ first more, taken = first :: more ∧
      ReadFrom input (σ.Spelled parameters) σ.pos first more :=
  mono (sort_located parameters) fun _ _ located => located.stands.read

/-- A sort takes its spelling. -/
theorem sort_spelled (parameters : List String) :
    Takes input (Reader.sort parameters) fun taken σ =>
      σ.Spelled parameters (taken.map Token.lexeme) :=
  mono (sort_located parameters) fun _ _ located => located.spelled

end Takes

end Reader

end SmtSession
