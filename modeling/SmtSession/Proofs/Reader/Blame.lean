import SmtSession.Proofs.Reader.Taken

/-!
# What reading errors are blamed on

**An error is blamed on tokens that were taken, or on the end of the text.** A reader that
fails has taken some tokens from the front; the range of its error is that of consecutive ones
among them, or it lies where the tokens end, and then all of them have been taken.

`Blames` says so of a reader that starts behind tokens that were taken before, of which it may
blame some too. It is stated for lists of a bounded length, for the bound of a reader that is
nested is used up only when the tokens are. There is one lemma for each reader; the last one
is for commands.
-/

namespace SmtSession.Reader

variable {input : Input}

/-- Is it what is wrong with a malformed quoted symbol? -/
def Cause.ofSymbol : Cause → Bool
  | .unknownEscape | .unclosedSymbol => true
  | _ => false

/-- What an error is blamed on, when some tokens have been taken and others are left. -/
inductive Blamed (input : Input) (taken rest : List Token) : Error → Prop
  /-- A command that is not known is named by one of the tokens. -/
  | unknownCommand (name : Token) (is : name ∈ taken) : Blamed input taken rest
      (.unknownCommand name.text)
  /-- The malformed quoted symbol that the tokens end at. -/
  | malformed {e : Error} (ends : input.malformed? = some e) (last : rest = []) :
      Blamed input taken rest e
  /-- The end of the text. -/
  | incomplete (place : Place) (ends : input.malformed? = none) (last : rest = []) :
      Blamed input taken rest (.malformed (.endOfInput place)
        ⟨input.ending.offset, input.ending.offset, some input.source⟩)
  /-- One token, or several that follow each other. -/
  | tokens (cause : Cause) (first : Token) (more : List Token) (other : cause.ofSymbol = false)
      (run : ∃ before after, taken = before ++ (first :: more ++ after)) :
      Blamed input taken rest (.malformed cause (input.spanned first more))

/-- **The reader blames what was taken**, before it or by it, in front of no more than `n`
tokens. What it gives is in the relation with the tokens that it took. -/
structure Blames (input : Input) (n : Nat) (taken : List Token) (r : Reader α)
    (Q : List Token → α → Prop) : Prop where
  done : ∀ ts rest a, ts.length ≤ n → r input ts = .done a rest →
    ∃ more, ts = more ++ rest ∧ Q more a
  failed : ∀ ts rest e, ts.length ≤ n → r input ts = .failed e rest →
    ∃ more, ts = more ++ rest ∧ Blamed input (taken ++ more) rest e

/-- No matter what was taken. -/
abbrev Any : List Token → α → Prop := fun _ _ => True

namespace Blames

variable {n : Nat} {taken : List Token} {Q : List Token → α → Prop} {t : Token}

/-! ## Rules -/

theorem le {m : Nat} {r : Reader α} (blames : Blames input n taken r Q) (fits : m ≤ n) :
    Blames input m taken r Q :=
  ⟨fun ts rest a short => blames.done ts rest a (Nat.le_trans short fits),
    fun ts rest e short => blames.failed ts rest e (Nat.le_trans short fits)⟩

theorem mono {r : Reader α} {R : List Token → α → Prop} (blames : Blames input n taken r Q)
    (implies : ∀ more a, Q more a → R more a) : Blames input n taken r R := by
  refine ⟨fun ts rest a short done => ?_, blames.failed⟩
  obtain ⟨more, split, holds⟩ := blames.done ts rest a short done
  exact ⟨more, split, implies more a holds⟩

theorem pure {a : α} (holds : Q [] a) : Blames input n taken (Pure.pure a) Q := by
  refine ⟨fun ts rest b _ done => ?_, fun ts rest e _ failed => ?_⟩
  · cases done
    exact ⟨[], rfl, holds⟩
  · cases failed

theorem bind {r : Reader α} {f : α → Reader β} {R : List Token → β → Prop}
    (first : Blames input n taken r Q)
    (next : ∀ more a, Q more a →
      Blames input n (taken ++ more) (f a) fun later b => R (more ++ later) b) :
    Blames input n taken (r >>= f) R := by
  have behind {ts middle : List Token} {a : α} (short : ts.length ≤ n)
      (found : r input ts = .done a middle) :
      ∃ more, ts = more ++ middle ∧ Q more a ∧ middle.length ≤ n := by
    obtain ⟨more, rfl, holds⟩ := first.done ts middle a short found
    rw [List.length_append] at short
    exact ⟨more, rfl, holds, by omega⟩
  refine ⟨fun ts rest b short done => ?_, fun ts rest e short failed => ?_⟩
  · cases found : r input ts with
    | failed e left =>
      rw [bind_of_failed found] at done
      cases done
    | done a middle =>
      rw [bind_of_done found] at done
      obtain ⟨more, rfl, holds, fits⟩ := behind short found
      obtain ⟨later, rfl, holds'⟩ := (next more a holds).done middle rest b fits done
      exact ⟨more ++ later, (List.append_assoc ..).symm, holds'⟩
  · cases found : r input ts with
    | failed e' left =>
      rw [bind_of_failed found] at failed
      cases failed
      exact first.failed ts rest e short found
    | done a middle =>
      rw [bind_of_done found] at failed
      obtain ⟨more, rfl, holds, fits⟩ := behind short found
      obtain ⟨later, rfl, blamed⟩ := (next more a holds).failed middle rest e fits failed
      rw [List.append_assoc] at blamed
      exact ⟨more ++ later, (List.append_assoc ..).symm, blamed⟩

theorem of_failed {r : Reader α} {e : Error} (fails : ∀ ts, r input ts = .failed e ts)
    (blamed : ∀ rest, Blamed input taken rest e) : Blames input n taken r Q := by
  refine ⟨fun ts rest a _ done => ?_, fun ts rest e' _ failed => ?_⟩
  · rw [fails] at done
    cases done
  · rw [fails] at failed
    cases failed
    exact ⟨[], rfl, by rw [List.append_nil]; exact blamed ts⟩

/-- One token is blamed. -/
theorem fail_at {cause : Cause} {pos : Pos} (is : t ∈ taken)
    (here : pos = ⟨t.start, t.stop, some input.source⟩)
    (other : cause.ofSymbol = false) :
    Blames input n taken (fail (.malformed cause pos)) Q := by
  obtain ⟨before, after, split⟩ := List.append_of_mem is
  subst here
  exact of_failed (fun _ => rfl) fun _ => .tokens cause t [] other ⟨before, after, split⟩

theorem refuse (cause : Cause) (is : t ∈ taken) (other : cause.ofSymbol = false) :
    Blames input n taken (Reader.refuse cause t) Q :=
  have blames : Blames input n taken (fail (.malformed cause _)) Q := fail_at is rfl other
  ⟨blames.done, blames.failed⟩

/-- A run of tokens that ends with the last one taken. -/
theorem refuseSpan (cause : Cause) (inner : List Token) {first last : Token}
    (is : first ∈ taken) (other : cause.ofSymbol = false) :
    Blames input n (taken ++ (inner ++ [last])) (Reader.refuseSpan cause first last) Q := by
  obtain ⟨before, after, split⟩ := List.append_of_mem is
  have range : input.spanned first (after ++ (inner ++ [last])) =
      ⟨first.start, last.stop, some input.source⟩ := by simp [Input.spanned]
  refine of_failed (fun _ => rfl) fun _ => range ▸ .tokens cause first _ other ⟨before, [], ?_⟩
  simp [split]

theorem range_bind {start stop : Nat} {f : Pos → Reader α}
    (rest : ∀ pos, pos = ⟨start, stop, some input.source⟩ → Blames input n taken (f pos) Q) :
    Blames input n taken (range start stop >>= f) Q :=
  ⟨(rest _ rfl).done, (rest _ rfl).failed⟩

theorem span_bind {u : Token} {f : Pos → Reader α} (rest : ∀ pos, Blames input n taken (f pos) Q) :
    Blames input n taken (span t u >>= f) Q :=
  range_bind fun pos _ => rest pos

theorem remaining_bind {f : Nat → Reader α} (rest : ∀ k, k ≤ n → Blames input k taken (f k) Q) :
    Blames input n taken (Reader.remaining >>= f) Q :=
  ⟨fun ts left a short => (rest ts.length short).done ts left a (Nat.le_refl _),
    fun ts left e short => (rest ts.length short).failed ts left e (Nat.le_refl _)⟩

/-! ## Single tokens -/

theorem endOfInput (place : Place) : Blames input 0 taken (Reader.endOfInput place) Q := by
  refine ⟨fun ts rest a _ done => ?_, fun ts rest e short failed => ?_⟩
  · unfold Reader.endOfInput at done
    split at done <;> cases done
  · obtain rfl := List.length_eq_zero_iff.mp (Nat.le_zero.mp short)
    unfold Reader.endOfInput at failed
    split at failed
    · next ends =>
      cases failed
      exact ⟨[], rfl, .malformed ends rfl⟩
    · next ends =>
      cases failed
      exact ⟨[], rfl, .incomplete place ends rfl⟩

/-- What is read of the first token, or nothing at the end. -/
theorem of_first {r : Reader α} {place : Place}
    (none : r input [] = Reader.endOfInput place input [])
    (some : ∀ t ts, ∃ a more rest,
      r input (t :: ts) = .done a rest ∧ t :: ts = more ++ rest ∧ Q more a) :
    Blames input n taken r Q := by
  have ended : Blames input 0 taken (Reader.endOfInput place : Reader α) Q := endOfInput place
  refine ⟨fun ts rest a _ done => ?_, fun ts rest e _ failed => ?_⟩
  · cases ts with
    | nil => exact ended.done [] rest a (Nat.le_refl _) (none ▸ done)
    | cons t ts =>
      obtain ⟨b, more, left, found, split, holds⟩ := some t ts
      rw [done] at found
      cases found
      exact ⟨more, split, holds⟩
  · cases ts with
    | nil => exact ended.failed [] rest e (Nat.le_refl _) (none ▸ failed)
    | cons t ts =>
      obtain ⟨b, more, left, found, -⟩ := some t ts
      rw [failed] at found
      cases found

theorem next (place : Place) :
    Blames input n taken (Reader.next place) fun more t => more = [t] :=
  of_first rfl fun t ts => ⟨t, [t], ts, rfl, rfl, rfl⟩

theorem next_bind {place : Place} {f : Token → Reader α}
    (rest : ∀ t, Blames input n (taken ++ [t]) (f t) fun more a => Q (t :: more) a) :
    Blames input n taken (Reader.next place >>= f) Q := by
  refine bind (next place) ?_
  rintro _ t rfl
  exact rest t

/-- The same where there is one token less to read behind it. -/
theorem first_bind {place : Place} {f : Token → Reader α}
    (rest : ∀ t, Blames input n (taken ++ [t]) (f t) fun more a => Q (t :: more) a) :
    Blames input (n + 1) taken (Reader.next place >>= f) Q := by
  have ended : Blames input 0 taken (Reader.next place >>= f) Q :=
    next_bind fun t => (rest t).le (Nat.zero_le n)
  refine ⟨fun ts left a short done => ?_, fun ts left e short failed => ?_⟩
  · cases ts with
    | nil => exact ended.done [] left a (Nat.le_refl _) done
    | cons t ts =>
      obtain ⟨more, rfl, holds⟩ := (rest t).done ts left a (Nat.le_of_succ_le_succ short) done
      exact ⟨t :: more, rfl, holds⟩
  · cases ts with
    | nil => exact ended.failed [] left e (Nat.le_refl _) failed
    | cons t ts =>
      obtain ⟨more, rfl, blamed⟩ := (rest t).failed ts left e (Nat.le_of_succ_le_succ short) failed
      rw [List.append_assoc] at blamed
      exact ⟨t :: more, rfl, blamed⟩

theorem peek_bind {place : Place} {f : Token → Reader α}
    (rest : ∀ t, Blames input n taken (f t) Q) :
    Blames input n taken (Reader.peek place >>= f) Q := by
  have first : Blames input n taken (Reader.peek place) fun more _ => more = [] :=
    of_first rfl fun t ts => ⟨t, [], t :: ts, rfl, rfl, rfl⟩
  refine bind first ?_
  rintro _ t rfl
  rw [List.append_nil]
  exact rest t

/-- Another reader, no matter what it takes, and then one that may blame that too. -/
theorem any_bind {r : Reader α} {f : α → Reader β} (first : Blames input n taken r Any)
    (next : ∀ more a, Blames input n (taken ++ more) (f a) Any) :
    Blames input n taken (r >>= f) Any :=
  bind first fun more a _ => next more a

/-- The last token that was taken. -/
theorem last_mem {t : Token} : t ∈ taken ++ [t] :=
  List.mem_append_right _ List.mem_cons_self

theorem opening (place : String) : Blames input n taken (Reader.opening place) Any := by
  refine next_bind fun t => ?_
  split
  · exact pure trivial
  · exact refuse _ last_mem rfl

theorem closing (place : String) : Blames input n taken (Reader.closing place) Any := by
  refine next_bind fun t => ?_
  split
  · exact pure trivial
  · exact refuse _ last_mem rfl

/-- The items, and the closing parenthesis behind them. -/
theorem untilClosing {place : String} {item : Token → Reader α} {bound : Nat}
    (fits : bound ≤ n)
    (each : ∀ t taken, t ∈ taken → Blames input n taken (item t) Any) :
    Blames input bound taken (Reader.untilClosing place item bound) fun more (_, close) =>
      ∃ inner, more = inner ++ [close] := by
  induction bound generalizing taken with
  | zero => exact endOfInput _
  | succ bound ih =>
    have fits : bound ≤ n := Nat.le_of_succ_le fits
    refine first_bind fun t => ?_
    split
    · exact pure ⟨[], rfl⟩
    · refine bind ((each t _ last_mem).le fits) fun here a _ => bind (ih fits) ?_
      rintro _ ⟨as, close⟩ ⟨inner, rfl⟩
      exact pure ⟨t :: (here ++ inner), by simp⟩

/-- Items, as many as there are tokens left at most. -/
theorem items_bind {place : String} {item : Token → Reader α} {f : List α × Token → Reader β}
    (each : ∀ t taken, t ∈ taken → Blames input n taken (item t) Any)
    (next : ∀ inner as close,
      Blames input n (taken ++ (inner ++ [close])) (f (as, close)) Any) :
    Blames input n taken
      (Reader.remaining >>= fun k => Reader.untilClosing place item k >>= f) Any := by
  refine remaining_bind fun k fits => bind (untilClosing fits each) ?_
  rintro _ ⟨as, close⟩ ⟨inner, rfl⟩
  exact (next inner as close).le fits

/-! ## Atoms -/

theorem atom (is : t ∈ taken) : Blames input n taken (Reader.atom t) Any := by
  refine range_bind fun pos here => ?_
  split
  · exact pure trivial
  · exact pure trivial
  · exact pure trivial
  · exact pure trivial
  · split <;> first | exact pure trivial | exact fail_at is here rfl

theorem symbolOf (is : t ∈ taken) : Blames input n taken (Reader.symbolOf t) Any := by
  unfold Reader.symbolOf
  split
  · exact refuse _ is rfl
  · refine any_bind (atom is) fun more a => ?_
    split
    · exact pure trivial
    · exact refuse _ (List.mem_append_left _ is) rfl

theorem keywordOf (is : t ∈ taken) : Blames input n taken (Reader.keywordOf t) Any := by
  unfold Reader.keywordOf
  split
  · exact refuse _ is rfl
  · refine any_bind (atom is) fun more a => ?_
    split
    · exact pure trivial
    · exact refuse _ (List.mem_append_left _ is) rfl

theorem numeralOf (is : t ∈ taken) : Blames input n taken (Reader.numeralOf t) Any := by
  unfold Reader.numeralOf
  split
  · exact pure trivial
  · exact refuse _ is rfl

theorem symbol (place : String) : Blames input n taken (Reader.symbol place) Any :=
  next_bind fun _ => symbolOf last_mem

theorem keyword (place : String) : Blames input n taken (Reader.keyword place) Any :=
  next_bind fun _ => keywordOf last_mem

/-! ## Sorts -/

theorem sortName (parameters : List String) (is : t ∈ taken) :
    Blames input n taken (Reader.sortName parameters t) Any := by
  refine any_bind (symbolOf is) fun more s => ?_
  split
  · exact pure trivial
  split
  · exact pure trivial
  · exact pure trivial

theorem indexedSort (is : t ∈ taken) : Blames input n taken (Reader.indexedSort t) Any := by
  refine any_bind (symbol _) fun more s =>
    items_bind (fun _ _ => numeralOf) fun inner indices close => ?_
  dsimp only
  split
  · exact refuseSpan _ inner (List.mem_append_left _ is) rfl
  · exact span_bind fun _ => pure trivial

theorem sortOf (parameters : List String) (bound : Nat) (is : t ∈ taken) :
    Blames input bound taken (Reader.sortOf parameters bound t) Any := by
  induction bound generalizing t taken with
  | zero =>
    unfold Reader.sortOf
    split
    · exact sortName _ is
    · exact endOfInput _
  | succ bound ih =>
    unfold Reader.sortOf
    split
    · exact sortName _ is
    refine first_bind fun head => ?_
    have is : t ∈ taken ++ [head] := List.mem_append_left _ is
    split
    · exact indexedSort is
    refine any_bind (symbolOf last_mem) fun more s => ?_
    refine bind (untilClosing (Nat.le_refl _) fun _ _ => ih) ?_
    rintro _ ⟨args, close⟩ ⟨inner, rfl⟩
    dsimp only
    split
    · exact refuseSpan _ inner (List.mem_append_left _ is) rfl
    · exact span_bind fun _ => pure trivial

theorem sort (parameters : List String) : Blames input n taken (Reader.sort parameters) Any :=
  next_bind fun _ => remaining_bind fun k _ => sortOf parameters k last_mem

/-! ## Identifiers and declarations -/

theorem plainTerm (is : t ∈ taken) : Blames input n taken (Reader.plainTerm t) Any := by
  refine any_bind (atom is) fun more a => ?_
  split
  · split
    · exact refuse _ (List.mem_append_left _ is) rfl
    · exact pure trivial
  · exact pure trivial

theorem indexOf (is : t ∈ taken) : Blames input n taken (Reader.indexOf t) Any := by
  unfold Reader.indexOf
  split
  · exact pure trivial
  · exact any_bind (symbolOf is) fun _ _ => pure trivial

theorem indexedIdentifier (is : t ∈ taken) :
    Blames input n taken (Reader.indexedIdentifier t) Any := by
  refine any_bind (symbol _) fun more s =>
    items_bind (fun _ _ => indexOf) fun inner indices close => ?_
  dsimp only
  split
  · exact refuseSpan _ inner (List.mem_append_left _ is) rfl
  · exact span_bind fun _ => pure trivial

theorem qualifiedIdentifier : Blames input n taken (Reader.qualifiedIdentifier t) Any :=
  any_bind (symbol _) fun _ _ => any_bind (sort _) fun _ _ => any_bind (closing _) fun _ _ =>
    span_bind fun _ => pure trivial

theorem identifier (is : t ∈ taken) : Blames input n taken (Reader.identifier t) Any := by
  refine next_bind fun head => ?_
  split
  · exact indexedIdentifier (List.mem_append_left _ is)
  split
  · exact qualifiedIdentifier
  · exact refuse _ last_mem rfl

theorem functionOf (is : t ∈ taken) : Blames input n taken (Reader.functionOf t) Any := by
  unfold Reader.functionOf
  split
  · exact identifier is
  refine any_bind (plainTerm is) fun more a => ?_
  split
  · exact pure trivial
  · exact refuse _ (List.mem_append_left _ is) rfl

theorem declarationOf (place : String) (is : t ∈ taken) :
    Blames input n taken (Reader.declarationOf place t) Any := by
  unfold Reader.declarationOf
  split
  · exact any_bind (symbol _) fun _ _ => any_bind (sort _) fun _ _ =>
      any_bind (closing _) fun _ _ => pure trivial
  · exact refuse _ is rfl

theorem declarations (place : String) : Blames input n taken (Reader.declarations place) Any :=
  any_bind (opening _) fun _ _ => items_bind (fun _ _ => declarationOf place) fun _ _ _ =>
    pure trivial

/-! ## Terms -/

section

variable {term : Token → Reader Term} {u : Token}
  (terms : ∀ t taken, t ∈ taken → Blames input n taken (term t) Any)

include terms

/-- A term that starts with the next token. -/
theorem term_bind {place : Place} {f : Term → Reader α}
    (rest : ∀ more a, Blames input n (taken ++ more) (f a) Any) :
    Blames input n taken (do f (← term (← Reader.next place))) Any := by
  refine next_bind fun t => any_bind (terms t _ last_mem) fun more a => ?_
  rw [List.append_assoc]
  exact rest ([t] ++ more) a

theorem bindingOf (is : t ∈ taken) : Blames input n taken (Reader.bindingOf term t) Any := by
  unfold Reader.bindingOf
  split
  · exact any_bind (symbol _) fun _ _ => term_bind terms fun _ _ =>
      any_bind (closing _) fun _ _ => pure trivial
  · exact refuse _ is rfl

theorem attributeValue (is : t ∈ taken) :
    Blames input n taken (Reader.attributeValue term t) Any := by
  unfold Reader.attributeValue
  split
  · exact terms t _ is
  · exact atom is

theorem attributeOf (is : t ∈ taken) : Blames input n taken (Reader.attributeOf term t) Any := by
  refine any_bind (keywordOf is) fun _ k => peek_bind fun ahead => ?_
  split
  · exact pure trivial
  · exact next_bind fun _ => any_bind (attributeValue terms last_mem) fun _ _ => pure trivial

theorem quantifiedTerm (q : Quantifier) (is : u ∈ taken) :
    Blames input n taken (Reader.quantifiedTerm term q t u) Any := by
  refine any_bind (declarations _) fun _ ds => ?_
  split
  · exact refuse _ (List.mem_append_left _ is) rfl
  · exact term_bind terms fun _ _ => any_bind (closing _) fun _ _ =>
      span_bind fun _ => pure trivial

theorem letTerm : Blames input n taken (Reader.letTerm term t) Any := by
  refine any_bind (opening _) fun _ _ =>
    items_bind (fun _ _ => bindingOf terms) fun inner bs close => ?_
  dsimp only
  split
  · exact refuse _ (by simp) rfl
  · exact term_bind terms fun _ _ => any_bind (closing _) fun _ _ =>
      span_bind fun _ => pure trivial

theorem annotatedTerm : Blames input n taken (Reader.annotatedTerm term t) Any := by
  refine term_bind terms fun _ body =>
    items_bind (fun _ _ => attributeOf terms) fun inner as close => ?_
  dsimp only
  split
  · exact refuse _ (by simp) rfl
  · exact span_bind fun _ => pure trivial

theorem application (is : u ∈ taken) :
    Blames input n taken (Reader.application term t u) Any :=
  any_bind (functionOf is) fun _ _ => items_bind terms fun _ _ _ =>
    span_bind fun _ => pure trivial

end

theorem termOf (bound : Nat) (is : t ∈ taken) :
    Blames input bound taken (Reader.termOf bound t) Any := by
  induction bound generalizing t taken with
  | zero =>
    unfold Reader.termOf
    split
    · exact refuse _ is rfl
    split
    · exact plainTerm is
    · exact endOfInput _
  | succ bound ih =>
    have terms : ∀ t taken, t ∈ taken → Blames input bound taken (Reader.termOf bound t) Any :=
      fun _ _ => ih
    unfold Reader.termOf
    split
    · exact refuse _ is rfl
    split
    · exact plainTerm is
    refine first_bind fun head => ?_
    split
    · exact refuseSpan _ [] is rfl
    split
    · exact indexedIdentifier (List.mem_append_left _ is)
    split
    · exact qualifiedIdentifier
    split
    · exact quantifiedTerm terms _ last_mem
    split
    · exact quantifiedTerm terms _ last_mem
    split
    · exact letTerm terms
    split
    · exact annotatedTerm terms
    · exact application terms last_mem

theorem term : Blames input n taken Reader.term Any :=
  next_bind fun _ => remaining_bind fun k _ => termOf k last_mem

/-! ## Arguments -/

theorem setting (word : String) (optional : Bool) :
    Blames input n taken (Reader.setting word optional) Any := by
  refine any_bind (keyword _) fun _ k => peek_bind fun ahead => ?_
  split
  · split
    · exact pure trivial
    · exact next_bind fun _ => refuse _ last_mem rfl
  · refine next_bind fun t => remaining_bind fun k _ => ?_
    exact any_bind (attributeValue (fun _ _ => termOf k) last_mem) fun _ _ => pure trivial

theorem optionalNumeral (word : String) (default : Nat) :
    Blames input n taken (Reader.optionalNumeral word default) Any := by
  refine peek_bind fun ahead => ?_
  split
  · exact pure trivial
  · exact next_bind fun _ => numeralOf last_mem

theorem stringLiteral (word : String) :
    Blames input n taken (Reader.stringLiteral word) Any := by
  refine next_bind fun t => any_bind (atom last_mem) fun more a => ?_
  split
  · exact pure trivial
  · exact refuse _ (List.mem_append_left _ last_mem) rfl

theorem listOf {word : String} {item : Token → Reader α}
    (each : ∀ (n : Nat) t taken, t ∈ taken → Blames input n taken (item t) Any) :
    Blames input n taken (Reader.listOf word item) fun more (_, close) => close ∈ more := by
  refine bind (opening _) fun more _ _ => remaining_bind fun k _ => ?_
  refine mono (untilClosing (Nat.le_refl k) (each k)) ?_
  rintro _ ⟨as, close⟩ ⟨inner, rfl⟩
  simp

/-! ## Commands -/

/-- The arguments of a command blame what they took. -/
theorem arguments {word : String} {r : Reader Command} (is : arguments? word = some r) :
    Blames input n taken r Any := by
  have sort_at (n : Nat) (t : Token) (taken : List Token) (is : t ∈ taken) :
      Blames input n taken (do Reader.sortOf [] (← Reader.remaining) t) Any :=
    remaining_bind fun k _ => sortOf [] k is
  have term_at (n : Nat) (t : Token) (taken : List Token) (is : t ∈ taken) :
      Blames input n taken (do Reader.termOf (← Reader.remaining) t) Any :=
    remaining_bind fun k _ => termOf k is
  unfold arguments? at is
  split at is <;> first | cases is | skip
  · -- assert
    exact any_bind term fun _ _ => pure trivial
  · -- declare-const
    exact any_bind (symbol _) fun _ _ => any_bind (sort _) fun _ _ => pure trivial
  · -- declare-fun
    refine any_bind (symbol _) fun _ _ => bind (listOf sort_at) fun _ _ _ => ?_
    exact any_bind (sort _) fun _ _ => pure trivial
  · -- declare-sort
    exact any_bind (symbol _) fun _ _ => any_bind (optionalNumeral _ _) fun _ _ => pure trivial
  · -- define-fun
    exact any_bind (symbol _) fun _ _ => any_bind (declarations _) fun _ _ =>
      any_bind (sort _) fun _ _ => any_bind term fun _ _ => pure trivial
  · -- define-sort
    refine any_bind (symbol _) fun _ _ => bind (listOf fun _ _ _ => symbolOf) fun _ _ _ => ?_
    exact any_bind (sort _) fun _ _ => pure trivial
  · -- echo
    exact any_bind (stringLiteral _) fun _ _ => pure trivial
  · -- get-info
    exact any_bind (keyword _) fun _ _ => pure trivial
  · -- get-option
    exact any_bind (keyword _) fun _ _ => pure trivial
  · -- get-value
    refine bind (listOf term_at) ?_
    rintro more ⟨terms, close⟩ close_mem
    dsimp only
    split
    · exact refuse _ (List.mem_append_right _ close_mem) rfl
    · exact pure trivial
  · -- pop
    exact any_bind (optionalNumeral _ _) fun _ _ => pure trivial
  · -- push
    exact any_bind (optionalNumeral _ _) fun _ _ => pure trivial
  · -- set-info
    exact any_bind (setting _ _) fun _ _ => pure trivial
  · -- set-logic
    exact any_bind (symbol _) fun _ _ => pure trivial
  · -- set-option
    exact any_bind (setting _ _) fun _ _ => pure trivial
  · -- a word alone
    obtain ⟨c, -, rfl⟩ := Option.map_eq_some_iff.mp is
    exact pure trivial

/-- The next token, or none, or the malformed quoted symbol that comes first. -/
theorem next? : Blames input n taken Reader.next? fun more t? => more = t?.toList := by
  refine ⟨fun ts rest t? _ done => ?_, fun ts rest e _ failed => ?_⟩
  · cases ts with
    | cons t ts =>
      cases done
      exact ⟨[t], rfl, rfl⟩
    | nil =>
      unfold Reader.next? at done
      dsimp only at done
      split at done <;> cases done
      exact ⟨[], rfl, rfl⟩
  · cases ts with
    | cons t ts => cases failed
    | nil =>
      unfold Reader.next? at failed
      dsimp only at failed
      split at failed
      · cases failed
      · next ends =>
        cases failed
        exact ⟨[], rfl, .malformed ends rfl⟩

theorem next?_bind {f : Option Token → Reader α} (none : Blames input n taken (f none) Any)
    (some : ∀ t, Blames input n (taken ++ [t]) (f (some t)) Any) :
    Blames input n taken (Reader.next? >>= f) Any := by
  refine bind next? ?_
  rintro _ t? rfl
  cases t? with
  | none =>
    rw [Option.toList, List.append_nil]
    exact none
  | some t => exact some t

/-- **The next command blames what it took**, or the end of the text. -/
theorem command? : Blames input n taken Reader.command? Any := by
  refine next?_bind (pure trivial) fun start => ?_
  dsimp only
  split
  · refine next_bind fun name => ?_
    cases is : argumentsAt? name with
    | none => exact of_failed (fun _ => rfl) fun _ => .unknownCommand name last_mem
    | some r =>
      have read : Blames input n (taken ++ [start] ++ [name]) r Any := by
        unfold argumentsAt? at is
        split at is
        · cases is
        · exact arguments is
      exact any_bind read fun _ _ => any_bind (closing _) fun _ _ => pure trivial
  · exact refuse _ last_mem rfl

/-- Behind a whole text nothing is left, or what is left is blamed. -/
theorem finished : Blames input n taken Reader.finished Any :=
  next?_bind (pure trivial) fun _ => refuse _ last_mem rfl

theorem commands (bound : Nat) : Blames input n taken (Reader.commands bound) Any := by
  induction bound generalizing taken with
  | zero => exact pure trivial
  | succ bound ih =>
    refine any_bind command? fun more c? => ?_
    cases c? with
    | none => exact pure trivial
    | some c => exact any_bind ih fun _ _ => pure trivial

end Blames

end SmtSession.Reader
