import SmtSession.Proofs.Reader.Literals
import SmtSession.Proofs.Reader.Sorts

/-!
# Reading terms as they are spelled

**A spelling of a term is read as that term**, positions apart: `term_reads`. There
is one lemma for each way a term is put together, which takes for granted that the
parts are read; the induction on the term only puts these lemmas together.

What stands first decides which reader goes on, so the lemmas also tell the first
lexeme of a spelling: a parenthesis, or an atom that is the whole spelling.
-/

namespace SmtSession.Reader

variable {after ls : List Lexeme} {l : Lexeme} {u : Term}

/-! ## One lexeme -/

theorem not_one_parenthesised : [l] ≠ parenthesised ls := by
  intro same
  have length := congrArg List.length same
  simp [parenthesised] at length

/-- A term that is one lexeme is read by itself, also when it is a reserved word. -/
theorem atom_reads (spelled : u.Spelled [l] ∨ u.SpelledWord [l]) :
    ¬ (l = .opening ∨ l = .closing) ∧
      ∀ t : Token, t.lexeme = l → ∀ after, Reads (atom t) [] after fun r => r.bare = u.bare := by
  have named {s : Symbol} (names : l.Names s.name) (t : Token) (is : t.lexeme = l)
      (after : List Lexeme) : Reads (atom t) [] after fun r => r.bare = (Term.symbol s).bare := by
    refine (atom_of_names (is ▸ names)).mono ?_
    rintro _ ⟨r, rfl, same⟩
    rw [Term.bare, Term.bare, Symbol.bare, Symbol.bare, same]
  cases u with
  | symbol s =>
    obtain ⟨_, same, names⟩ : ∃ l' : Lexeme, [l] = [l'] ∧ l'.Names s.name := by
      rcases spelled with ⟨l', same, names, -⟩ | ⟨l', same, names⟩
      · exact ⟨l', same, names⟩
      · exact ⟨l', same, names⟩
    cases same
    exact ⟨not_parenthesis_of_names names, named names⟩
  | numeral value pos =>
    obtain ⟨_, same, counts⟩ := spelled.resolve_right id
    cases same
    cases l with
    | plain text =>
      obtain ⟨n, class_, rfl⟩ := counts
      refine ⟨by simp, fun t is after => Reads.posOf_bind fun pos => ?_⟩
      simp only [is, class_]
      exact Reads.pure rfl
    | _ => cases counts
  | decimal text pos =>
    obtain ⟨same, class_⟩ := spelled.resolve_right id
    cases same
    refine ⟨by simp, fun t is after => Reads.posOf_bind fun pos => ?_⟩
    simp only [is, show AtomClass.ofChars text.toList = .decimal from class_]
    exact Reads.pure rfl
  | hex digits pos =>
    obtain ⟨_, same, class_⟩ := spelled.resolve_right id
    cases same
    cases l with
    | plain text =>
      refine ⟨by simp, fun t is after => Reads.posOf_bind fun pos => ?_⟩
      simp only [is, show AtomClass.ofChars text.toList = .hex digits from class_]
      exact Reads.pure rfl
    | _ => cases class_
  | binary digits pos =>
    obtain ⟨_, same, class_⟩ := spelled.resolve_right id
    cases same
    cases l with
    | plain text =>
      refine ⟨by simp, fun t is after => Reads.posOf_bind fun pos => ?_⟩
      simp only [is, show AtomClass.ofChars text.toList = .binary digits from class_]
      exact Reads.pure rfl
    | _ => cases class_
  | string content pos =>
    cases spelled.resolve_right id
    refine ⟨by simp, fun t is after => Reads.posOf_bind fun pos => ?_⟩
    simp only [is]
    exact Reads.pure rfl
  | keyword k =>
    obtain ⟨same, class_⟩ := spelled.resolve_right id
    cases same
    refine ⟨by simp, fun t is after => Reads.posOf_bind fun pos => ?_⟩
    simp only [is, show AtomClass.ofChars k.name.toList = .keyword from class_]
    exact Reads.pure rfl
  | qualified =>
    obtain ⟨_, _, same, -⟩ := spelled.resolve_right id
    exact absurd same not_one_parenthesised
  | indexed | apply | quantified | letIn | attributed =>
    obtain ⟨-, _, _, same, -⟩ := spelled.resolve_right id
    exact absurd same not_one_parenthesised
  | _ => exact absurd (spelled.resolve_right id) id

/-- Only a symbol is a symbol when positions are left out. -/
theorem eq_symbol_of_bare {r : Symbol} (same : u.bare = .symbol r) :
    ∃ s, u = .symbol s ∧ s.name = r.name := by
  cases u with
  | symbol s =>
    rw [Term.bare] at same
    cases same
    exact ⟨s, rfl, rfl⟩
  | binding b =>
    obtain ⟨s, t⟩ := b
    cases same
  | attr a =>
    obtain ⟨k, v⟩ := a
    cases v <;> cases same
  | _ => cases same

/-- A term that is one lexeme and no reserved word is read where a term may
stand. -/
theorem plainTerm_reads (spelled : u.Spelled [l]) {t : Token} (is : t.lexeme = l) :
    Reads (plainTerm t) [] after fun r => r.bare = u.bare := by
  refine Reads.silent_bind ((atom_reads (.inl spelled)).2 t is _) ?_
  intro v same
  cases v with
  | symbol s =>
    have free : ¬ (t.lexeme = .plain s.name ∧ s.name ∈ reservedWords) := by
      rintro ⟨plain, reserved⟩
      obtain ⟨r, rfl, named⟩ := eq_symbol_of_bare same.symm
      obtain ⟨_, here, -, unreserved⟩ := spelled
      cases here
      rw [show s.name = r.name from named.symm] at plain reserved
      exact unreserved (is ▸ plain) reserved
    show Reads (if _ then _ else _) [] _ _
    rw [if_neg free]
    exact Reads.pure same
  | _ => exact Reads.pure same

/-! ## Identifiers -/

/-- The indices of an identifier, behind its underscore. -/
theorem indexedIdentifier_reads {start : Token} {s : Symbol} {indices : List Index}
    {pos : Option Pos} {name : Lexeme} {is : List Lexeme} (some : indices ≠ [])
    (names : name.Names s.name) (spelled : SpelledEach Index.Spelled indices is) :
    Reads (indexedIdentifier start) (name :: (is ++ [.closing])) after fun r =>
      r.bare = (Term.indexed s indices pos).bare := by
  refine Reads.one_bind (symbol_reads names) ?_
  intro r named
  refine Reads.remaining_bind ?_
  refine Reads.last_bind (until_each_reads (f := id) (g := id) spelled _
    (length_lt_closed _ _) ?_) ?_
  · exact fun i _ l t spells is =>
      ⟨not_closing_of_index spells, fun after => indexOf_reads (is ▸ spells)⟩
  · rintro ⟨values, close⟩ ⟨same, -⟩
    rw [List.map_id, List.map_id] at same
    subst same
    show Reads (if values.isEmpty then _ else _) [] _ _
    rw [if_neg (by simpa using some)]
    refine Reads.span_bind fun pos => Reads.pure ?_
    rw [Term.bare, Term.bare, Symbol.bare, Symbol.bare, named]

/-- The name and the sort of an identifier, behind its word. -/
theorem qualifiedIdentifier_reads {start : Token} {s : Symbol} {σ : SmtSort} {pos : Option Pos}
    {name : Lexeme} {ss : List Lexeme} (names : name.Names s.name) (spelled : σ.Spelled [] ss) :
    Reads (qualifiedIdentifier start) (name :: (ss ++ [.closing])) after fun r =>
      r.bare = (Term.qualified s σ pos).bare := by
  refine Reads.one_bind (symbol_reads names) ?_
  intro r named
  refine Reads.bind (nextSort_reads spelled) ?_
  intro ρ same
  refine Reads.closing_bind fun close _ => Reads.span_bind fun pos => Reads.pure ?_
  rw [Term.bare, Term.bare, Symbol.bare, Symbol.bare, named, same]

/-! ## What stands between parentheses -/

/-- How a term is read, by a reader whose bound covers the tokens left. -/
def TermReads (u : Term) : Prop :=
  ∀ (ls after : List Lexeme) (bound : Nat), u.Spelled ls → ls.length + after.length ≤ bound + 1 →
    ReadsAt (termOf bound) ls after fun r => r.bare = u.bare

/-- A term that is one lexeme is read. -/
theorem termReads_of_one {u : Term} (one : ∀ ls, u.Spelled ls → ∃ l, ls = [l]) : TermReads u := by
  intro ls after bound spelled _
  obtain ⟨l, rfl⟩ := one ls spelled
  obtain ⟨opening, closing⟩ := not_or.mp (atom_reads (.inl spelled)).1
  refine ⟨l, [], rfl, closing, fun t is => ?_⟩
  unfold termOf
  rw [if_neg (by rw [is]; exact closing), if_pos (by rw [is]; exact opening)]
  exact plainTerm_reads spelled is

/-- A term between parentheses is read when it is read behind the first of them,
with a smaller bound. -/
theorem readsAt_parenthesised {bound : Nat} {P : Term → Prop}
    (fits : (parenthesised ls).length + after.length ≤ bound + 1)
    (reads : ∀ (bound : Nat) (t : Token), t.lexeme = .opening → ls.length + after.length ≤ bound →
      Reads (termOf (bound + 1) t) (ls ++ [.closing]) after P) :
    ReadsAt (termOf bound) (parenthesised ls) after P := by
  simp only [parenthesised, List.length_cons, List.length_append, List.length_nil] at fits
  obtain ⟨bound, rfl⟩ : ∃ b, bound = b + 1 := ⟨bound - 1, by omega⟩
  exact ⟨.opening, _, rfl, opening_ne_closing, fun t is => reads bound t is (by omega)⟩

theorem qualified_reads (s : Symbol) (σ : SmtSort) (pos : Option Pos) :
    TermReads (.qualified s σ pos) := by
  rintro _ after bound ⟨name, ss, rfl, names, spelled⟩ fits
  refine readsAt_parenthesised fits ?_
  intro bound t is fits
  unfold termOf
  rw [if_neg (by simp [is]), if_neg (fun other => other is)]
  refine Reads.next_bind ?_
  intro head head_is
  simp only [head_is, reduceCtorEq, Lexeme.plain.injEq, String.reduceEq, ↓reduceIte]
  exact qualifiedIdentifier_reads names spelled

theorem indexed_reads (s : Symbol) (indices : List Index) (pos : Option Pos) :
    TermReads (.indexed s indices pos) := by
  rintro _ after bound ⟨some, name, ss, rfl, names, spelled⟩ fits
  refine readsAt_parenthesised fits ?_
  intro bound t is fits
  unfold termOf
  rw [if_neg (by simp [is]), if_neg (fun other => other is)]
  refine Reads.next_bind ?_
  intro head head_is
  simp only [head_is, reduceCtorEq, ↓reduceIte]
  exact indexedIdentifier_reads some names spelled

/-! ## Applications -/

/-- A head is read as itself, and does not start like anything else. -/
theorem functionOf_reads {head : Term} {hs : List Lexeme} (identifier : head.IsIdentifier)
    (spelled : head.Spelled hs) (after : List Lexeme) :
    ∃ l hs', hs = l :: hs' ∧ l ≠ .closing ∧ (∀ w ∈ reservedWords, l ≠ .plain w) ∧
      ∀ t : Token, t.lexeme = l → Reads (functionOf t) hs' after fun r => r.bare = head.bare := by
  cases head with
  | symbol s =>
    obtain ⟨l, rfl, names, unreserved⟩ := spelled
    obtain ⟨opening, closing⟩ := not_or.mp (not_parenthesis_of_names names)
    have free : ∀ w ∈ reservedWords, l ≠ .plain w := by
      rintro w reserved rfl
      obtain ⟨rfl, -⟩ := names
      exact unreserved rfl reserved
    refine ⟨l, [], rfl, closing, free, fun t is => ?_⟩
    unfold functionOf
    rw [if_neg (by rw [is]; exact opening)]
    have one : (Term.symbol s).Spelled [l] := ⟨l, rfl, names, unreserved⟩
    refine Reads.silent_bind (plainTerm_reads one is) ?_
    intro r same
    rw [Term.bare] at same
    obtain ⟨r, rfl, named⟩ := eq_symbol_of_bare same
    refine Reads.pure ?_
    rw [Term.bare, Term.bare, Symbol.bare, named]
    rfl
  | qualified s σ pos =>
    obtain ⟨name, ss, rfl, names, spelled⟩ := spelled
    refine ⟨.opening, _, rfl, opening_ne_closing, fun w _ => Lexeme.noConfusion, fun t is => ?_⟩
    unfold functionOf
    rw [if_pos is]
    refine Reads.next_bind ?_
    intro word word_is
    simp only [word_is, Lexeme.plain.injEq, String.reduceEq, ↓reduceIte]
    exact qualifiedIdentifier_reads names spelled
  | indexed s indices pos =>
    obtain ⟨some, name, is, rfl, names, spelled⟩ := spelled
    refine ⟨.opening, _, rfl, opening_ne_closing, fun w _ => Lexeme.noConfusion, fun t is => ?_⟩
    unfold functionOf
    rw [if_pos is]
    refine Reads.next_bind ?_
    intro word word_is
    rw [word_is, if_pos rfl]
    exact indexedIdentifier_reads some names spelled
  | _ => cases identifier

theorem termsBare_eq_map (ts : List Term) : Term.bareAll ts = ts.map Term.bare := by
  induction ts with
  | nil => rfl
  | cons t ts ih => rw [Term.bareAll, ih]; rfl

theorem terms_spelled {ts : List Term} {ls : List Lexeme} :
    Term.AllSpelled ts ls ↔ SpelledAll Term.Spelled ts ls := by
  induction ts generalizing ls with
  | nil => exact Iff.rfl
  | cons t ts ih =>
    unfold Term.AllSpelled SpelledAll
    simp only [ih]

/-- An application is read when its arguments are. -/
theorem apply_reads {args : List Term} (args_read : ∀ t ∈ args, TermReads t) (head : Term)
    (pos : Option Pos) : TermReads (.apply head args pos) := by
  rintro _ after bound ⟨identifier, hs, as, rfl, head_spelled, spelled⟩ fits
  refine readsAt_parenthesised fits ?_
  intro bound t is fits
  obtain ⟨l, hs', rfl, closing, free, reads⟩ :=
    functionOf_reads identifier head_spelled (as ++ [.closing] ++ after)
  unfold termOf
  rw [if_neg (by simp [is]), if_neg (fun other => other is)]
  refine Reads.next_bind ?_
  intro word word_is
  rw [word_is, if_neg closing, if_neg (free _ (by decide)), if_neg (free _ (by decide)),
    if_neg (free _ (by decide)), if_neg (free _ (by decide)), if_neg (free _ (by decide)),
    if_neg (free _ (by decide))]
  show Reads (application (termOf bound) t word) (hs' ++ as ++ [.closing]) after _
  rw [List.append_assoc]
  refine Reads.bind (reads word word_is) fun f same => Reads.remaining_bind ?_
  simp only [List.length_append, List.length_cons] at fits
  refine Reads.last_bind (until_reads (f := Term.bare) (g := Term.bare) (terms_spelled.mp spelled) _
    (length_lt_closed _ _) fun b is cs here later spells _ shorter => ?_) ?_
  · exact args_read b is _ _ _ spells (by
      simp only [List.length_append, List.length_cons]
      omega)
  · rintro ⟨values, close⟩ ⟨same_args, -⟩
    refine Reads.span_bind fun pos => Reads.pure ?_
    rw [Term.bare, Term.bare, same, termsBare_eq_map, termsBare_eq_map, same_args]

/-! ## Binders -/

/-- The variables of a binder or of a definition, between parentheses. -/
theorem declarations_reads {place : String} {decls : List Declaration} {ds : List Lexeme}
    (spelled : SpelledAll Declaration.Spelled decls ds) :
    Reads (declarations place) (parenthesised ds) after fun rs =>
      rs.map Declaration.bare = decls.map Declaration.bare := by
  refine Reads.opening_bind fun _ _ => Reads.remaining_bind ?_
  refine Reads.last_bind (until_reads (f := Declaration.bare) (g := Declaration.bare) spelled _
    (length_lt_closed _ _) ?_) fun (rs, _) ⟨same, _⟩ => Reads.pure same
  rintro decl - _ _ later ⟨name, sort, rfl, names, sort_spelled⟩ - -
  refine ⟨.opening, _, rfl, opening_ne_closing, fun t is => ?_⟩
  unfold declarationOf
  rw [if_pos is]
  refine Reads.one_bind (symbol_reads names) ?_
  intro r named
  refine Reads.bind (nextSort_reads sort_spelled) ?_
  intro σ same
  refine Reads.closing_bind fun _ _ => Reads.pure ?_
  rw [Declaration.bare, Declaration.bare, Symbol.bare, Symbol.bare, named, same]

/-- A quantified term is read when its body is, behind its word. -/
theorem quantifiedTerm_reads {term : Token → Reader Term} {q : Quantifier} {start head : Token}
    {parameters : List Declaration} {body : Term} {pos : Option Pos} {ds bs : List Lexeme}
    (some : parameters ≠ []) (spelled : SpelledAll Declaration.Spelled parameters ds)
    (reads : ReadsAt term bs (.closing :: after) fun r => r.bare = body.bare) :
    Reads (quantifiedTerm term q start head) (parenthesised ds ++ (bs ++ [.closing])) after fun r =>
      r.bare = (Term.quantified q parameters body pos).bare := by
  refine Reads.bind (declarations_reads spelled) ?_
  intro rs same
  rw [if_neg (isEmpty_of_map (by simpa using some) same)]
  refine ReadsAt.next_bind reads ?_
  intro r same_body
  refine Reads.closing_bind fun last _ => Reads.span_bind fun pos => Reads.pure ?_
  rw [Term.bare, Term.bare, same, same_body]

theorem quantified_reads {body : Term} (body_reads : TermReads body) (q : Quantifier)
    (parameters : List Declaration) (pos : Option Pos) :
    TermReads (.quantified q parameters body pos) := by
  rintro _ after bound ⟨some, ds, bs, rfl, spelled, body_spelled⟩ fits
  refine readsAt_parenthesised fits ?_
  intro bound t is fits
  simp only [List.length_append, List.length_cons] at fits
  unfold termOf
  rw [if_neg (by simp [is]), if_neg (fun other => other is)]
  refine Reads.next_bind ?_
  intro head head_is
  have reads := body_reads bs (.closing :: after) bound body_spelled (by
    simp only [List.length_cons]
    omega)
  show Reads _ (parenthesised ds ++ bs ++ [.closing]) after _
  rw [List.append_assoc]
  cases q with
  | universal =>
    simp only [head_is, Quantifier.word, reduceCtorEq, Lexeme.plain.injEq, String.reduceEq,
      ↓reduceIte]
    exact quantifiedTerm_reads some spelled reads
  | existential =>
    simp only [head_is, Quantifier.word, reduceCtorEq, Lexeme.plain.injEq, String.reduceEq,
      ↓reduceIte]
    exact quantifiedTerm_reads some spelled reads

/-! ## Let-terms -/

/-- How a binding is spelled. -/
def BindingSpelled : Binding → List Lexeme → Prop
  | .mk s t, ls => ∃ (name : Lexeme) (ts : List Lexeme), ls = parenthesised (name :: ts) ∧
      name.Names s.name ∧ t.Spelled ts

/-- The binding without positions. -/
def bareBinding : Binding → Binding
  | .mk s t => .mk s.bare t.bare

theorem bindings_spelled {bs : List Binding} {ls : List Lexeme} :
    Term.BindingsSpelled bs ls ↔ SpelledAll BindingSpelled bs ls := by
  induction bs generalizing ls with
  | nil => exact Iff.rfl
  | cons b bs ih =>
    obtain ⟨s, t⟩ := b
    constructor
    · rintro ⟨name, ts, later, same, names, spelled, more⟩
      exact ⟨_, later, same, ⟨name, ts, rfl, names, spelled⟩, ih.mp more⟩
    · rintro ⟨_, later, same, ⟨name, ts, rfl, names, spelled⟩, more⟩
      exact ⟨name, ts, later, same, names, spelled, ih.mpr more⟩

theorem bindingsBare_eq_map (bs : List Binding) : Term.bareBindings bs = bs.map bareBinding := by
  induction bs with
  | nil => rfl
  | cons b bs ih =>
    obtain ⟨s, t⟩ := b
    rw [Term.bareBindings, ih]
    rfl

/-- A let-term is read when its body and what it binds are. -/
theorem letIn_reads {bindings : List Binding} {body : Term}
    (bound_read : ∀ s t, .mk s t ∈ bindings → TermReads t) (body_reads : TermReads body)
    (pos : Option Pos) : TermReads (.letIn bindings body pos) := by
  rintro _ after bound ⟨some, bs, ts, rfl, spelled, body_spelled⟩ fits
  refine readsAt_parenthesised fits ?_
  intro bound t is fits
  simp only [parenthesised, List.length_append, List.length_cons] at fits
  unfold termOf
  rw [if_neg (by simp [is]), if_neg (fun other => other is)]
  refine Reads.next_bind ?_
  intro head head_is
  simp only [head_is, reduceCtorEq, Lexeme.plain.injEq, String.reduceEq, ↓reduceIte]
  have shape : parenthesised bs ++ ts ++ [.closing] =
      .opening :: (bs ++ [.closing] ++ (ts ++ [.closing])) := by simp [parenthesised]
  show Reads _ (parenthesised bs ++ ts ++ [.closing]) after _
  rw [shape]
  refine Reads.opening_bind fun _ _ => Reads.remaining_bind ?_
  refine Reads.bind (until_reads (f := bareBinding) (g := bareBinding)
    (bindings_spelled.mp spelled) _ (by simp only [List.length_append, List.length_cons]; omega)
    ?_) ?_
  · rintro ⟨s, u⟩ is _ _ later ⟨name, us, rfl, names, spelled⟩ - shorter
    simp only [parenthesised, List.length_append, List.length_cons] at shorter
    refine ⟨.opening, _, rfl, opening_ne_closing, fun t is_opening => ?_⟩
    unfold bindingOf
    rw [if_pos is_opening]
    refine Reads.one_bind (symbol_reads names) ?_
    intro r named
    have reads := bound_read s u is us
      (.closing :: (later ++ .closing :: (ts ++ [.closing] ++ after))) bound spelled (by
        simp only [List.length_append, List.length_cons, List.length_nil]
        omega)
    refine ReadsAt.next_bind reads ?_
    intro v same
    refine Reads.closing_bind fun _ _ => Reads.pure ?_
    rw [bareBinding, bareBinding, Symbol.bare, Symbol.bare, named, same]
  · rintro ⟨values, close⟩ ⟨same, -⟩
    show Reads (if values.isEmpty then _ else _) _ _ _
    rw [if_neg (isEmpty_of_map (by simpa using some) same)]
    have reads := body_reads ts (.closing :: after) bound body_spelled (by
      simp only [List.length_cons]
      omega)
    refine ReadsAt.next_bind reads ?_
    intro r same_body
    refine Reads.closing_bind fun last _ => Reads.span_bind fun pos => Reads.pure ?_
    rw [Term.bare, Term.bare, bindingsBare_eq_map, bindingsBare_eq_map, same, same_body]

/-! ## Annotations -/

theorem isKeyword_of_class {t : Token} {text : String} (is : t.lexeme = .plain text)
    (class_ : AtomClass.ofChars text.toList = .keyword) : isKeyword t = true := by
  unfold isKeyword
  rw [is]
  exact beq_iff_eq.mpr (AtomClass.colon_of_ofChars class_)

/-- Only a keyword is a keyword when positions are left out. -/
theorem isKeyword_of_bare {k : Keyword} (same : Term.bare (.keyword k) = u.bare) : u.IsKeyword := by
  cases u with
  | keyword => trivial
  | binding b =>
    obtain ⟨s, t⟩ := b
    cases same
  | attr a =>
    obtain ⟨k, v⟩ := a
    cases v <;> cases same
  | _ => cases same

/-- Only a keyword is spelled by an atom that begins with a colon. -/
theorem not_isKeyword_of_spelled {t : Token}
    (spelled : u.Spelled [t.lexeme] ∨ u.SpelledWord [t.lexeme]) (other : ¬ u.IsKeyword) :
    isKeyword t = false := by
  cases front : isKeyword t with
  | false => rfl
  | true =>
    unfold isKeyword at front
    split at front
    · next text is =>
      obtain ⟨cs, colon⟩ := List.head?_eq_some_iff.mp (beq_iff_eq.mp front)
      have reads := (atom_reads spelled).2 t rfl []
      have class_ : AtomClass.ofChars text.toList = .keyword := by
        rw [colon, AtomClass.ofChars_of_colon]
      -- the atom is read both as the term and as a keyword
      obtain ⟨r, done, same⟩ := reads ⟨⟨"", none⟩, .finished 0⟩ [] [] rfl rfl
      unfold atom at done
      simp only [is, class_] at done
      have value : Outcome.done (Term.keyword ⟨text, some _⟩) [] = .done r [] := done
      cases value
      exact absurd (isKeyword_of_bare same) other
    · cases front

/-- The lexemes of a term: one, or some between parentheses. -/
theorem one_or_parenthesised (spelled : u.Spelled ls) :
    (∃ l, ls = [l]) ∨ ∃ inner, ls = parenthesised inner := by
  cases u with
  | numeral | hex | binary | symbol =>
    obtain ⟨l, rfl, -⟩ := spelled
    exact .inl ⟨l, rfl⟩
  | decimal | keyword =>
    obtain ⟨rfl, -⟩ := spelled
    exact .inl ⟨_, rfl⟩
  | string =>
    cases spelled
    exact .inl ⟨_, rfl⟩
  | qualified =>
    obtain ⟨_, _, rfl, -⟩ := spelled
    exact .inr ⟨_, rfl⟩
  | indexed | apply | quantified | letIn | attributed =>
    obtain ⟨-, _, _, rfl, -⟩ := spelled
    exact .inr ⟨_, rfl⟩
  | _ => cases spelled

/-- The value of an annotation or of an option is read when terms are. -/
theorem attributeValue_reads {item : Token → Reader Term} {v : Term} {vs : List Lexeme}
    (spelled : v.Spelled vs ∨ v.SpelledWord vs)
    (reads : v.Spelled vs → ReadsAt item vs after fun r => r.bare = v.bare) :
    ReadsAt (attributeValue item) vs after fun r => r.bare = v.bare := by
  have one_lexeme {l : Lexeme} (spelled : v.Spelled [l] ∨ v.SpelledWord [l]) :
      ReadsAt (attributeValue item) [l] after fun r => r.bare = v.bare := by
    obtain ⟨other, starts⟩ := atom_reads spelled
    obtain ⟨opening, closing⟩ := not_or.mp other
    refine ⟨l, [], rfl, closing, fun t is => ?_⟩
    unfold attributeValue
    rw [if_neg (by rw [is]; exact opening)]
    exact starts t is after
  rcases spelled with spelled | word
  · rcases one_or_parenthesised spelled with ⟨l, rfl⟩ | ⟨inner, rfl⟩
    · exact one_lexeme (.inl spelled)
    · obtain ⟨l, ls', same, closing, starts⟩ := reads spelled
      cases same
      refine ⟨.opening, _, rfl, closing, fun t is => ?_⟩
      unfold attributeValue
      rw [if_pos is]
      exact starts t is
  · obtain ⟨l, rfl⟩ : ∃ l, vs = [l] := by
      cases v with
      | symbol => obtain ⟨l, rfl, -⟩ := word; exact ⟨l, rfl⟩
      | _ => cases word
    exact one_lexeme (.inr word)

/-- How an annotation is spelled. -/
def AttributeSpelled : Attribute → List Lexeme → Prop
  | .mk k none, ls => ∃ l, ls = [l] ∧ k.Spelled l
  | .mk k (some v), ls => ∃ l vs, ls = l :: vs ∧ k.Spelled l ∧ ¬ v.IsKeyword ∧
      (v.Spelled vs ∨ v.SpelledWord vs)

/-- The annotation without positions. -/
def bareAttribute : Attribute → Attribute
  | .mk k none => .mk k.bare none
  | .mk k (some v) => .mk k.bare (some v.bare)

theorem attributes_spelled {as : List Attribute} {ls : List Lexeme} :
    Term.AttributesSpelled as ls ↔ SpelledAll AttributeSpelled as ls := by
  induction as generalizing ls with
  | nil => exact Iff.rfl
  | cons a as ih =>
    obtain ⟨k, v⟩ := a
    cases v with
    | none =>
      constructor
      · rintro ⟨later, rfl, class_, more⟩
        exact ⟨[_], later, rfl, ⟨_, rfl, rfl, class_⟩, ih.mp more⟩
      · rintro ⟨_, later, rfl, ⟨_, rfl, rfl, class_⟩, more⟩
        exact ⟨later, rfl, class_, ih.mpr more⟩
    | some v =>
      constructor
      · rintro ⟨vs, later, rfl, class_, other, spelled, more⟩
        exact ⟨_ :: vs, later, rfl, ⟨_, vs, rfl, ⟨rfl, class_⟩, other, spelled⟩, ih.mp more⟩
      · rintro ⟨_, later, rfl, ⟨_, vs, rfl, ⟨rfl, class_⟩, other, spelled⟩, more⟩
        exact ⟨vs, later, rfl, class_, other, spelled, ih.mpr more⟩

theorem attributesBare_eq_map (as : List Attribute) :
    Term.bareAttributes as = as.map bareAttribute := by
  induction as with
  | nil => rfl
  | cons a as ih =>
    obtain ⟨k, v⟩ := a
    cases v <;> (rw [Term.bareAttributes, ih]; rfl)

/-- Behind an annotation comes a keyword, or the parenthesis that closes them. -/
theorem behind_attribute {as : List Attribute} (spelled : SpelledAll AttributeSpelled as ls) :
    ∃ l ls', ls ++ .closing :: after = l :: ls' ∧
      ∀ t : Token, t.lexeme = l → t.lexeme = .closing ∨ isKeyword t = true := by
  have first {k : Keyword} {l : Lexeme} (spelled : k.Spelled l) (t : Token) (is : t.lexeme = l) :
      t.lexeme = .closing ∨ isKeyword t = true := by
    obtain ⟨rfl, class_⟩ := spelled
    exact .inr (isKeyword_of_class is class_)
  cases as with
  | nil =>
    cases spelled
    exact ⟨.closing, after, rfl, fun t is => .inl is⟩
  | cons a as =>
    obtain ⟨here, later, rfl, spelled, -⟩ := spelled
    obtain ⟨k, v⟩ := a
    cases v with
    | none =>
      obtain ⟨l, rfl, spelled⟩ := spelled
      exact ⟨l, _, rfl, first spelled⟩
    | some v =>
      obtain ⟨l, vs, rfl, spelled, -⟩ := spelled
      exact ⟨l, _, rfl, first spelled⟩

/-- The value of an annotation does not begin like the next annotation. -/
theorem not_isKeyword_of_value {v : Term} {vs ls' : List Lexeme} {t : Token}
    (spelled : v.Spelled vs ∨ v.SpelledWord vs) (other : ¬ v.IsKeyword)
    (is : vs = t.lexeme :: ls') : isKeyword t = false := by
  subst is
  cases ls' with
  | nil => exact not_isKeyword_of_spelled spelled other
  | cons l ls' =>
    rcases spelled with spelled | word
    · rcases one_or_parenthesised spelled with ⟨_, same⟩ | ⟨_, same⟩
      · cases same
      · obtain ⟨opening, -⟩ := List.cons.inj same
        rw [isKeyword, opening]
    · cases v with
      | symbol => obtain ⟨_, same, -⟩ := word; cases same
      | _ => cases word

/-- An annotation is read in front of others, and in front of the parenthesis that
closes them. -/
theorem attributeOf_reads {item : Token → Reader Term} {a : Attribute} {as : List Attribute}
    {here later : List Lexeme} (spelled : AttributeSpelled a here)
    (more : SpelledAll AttributeSpelled as later)
    (reads : ∀ k v l vs, a = .mk k (some v) → here = l :: vs → v.Spelled vs →
      ReadsAt item vs (later ++ .closing :: after) fun r => r.bare = v.bare) :
    ReadsAt (attributeOf item) here (later ++ .closing :: after) fun r =>
      bareAttribute r = bareAttribute a := by
  obtain ⟨k, v⟩ := a
  cases v with
  | none =>
    obtain ⟨l, rfl, key⟩ := spelled
    refine ⟨l, [], rfl, by simp [key.1], fun t is => ?_⟩
    refine Reads.silent_bind (keywordOf_reads (is ▸ key)) ?_
    intro r named
    obtain ⟨ahead, ls', behind, front⟩ := behind_attribute more
    refine Reads.peek_bind behind ?_
    intro u is
    rw [if_pos (front u is)]
    refine Reads.pure ?_
    rw [bareAttribute, bareAttribute, Keyword.bare, Keyword.bare, named]
  | some v =>
    obtain ⟨l, vs, rfl, key, other, spelled⟩ := spelled
    refine ⟨l, vs, rfl, by simp [key.1], fun t is => ?_⟩
    refine Reads.silent_bind (keywordOf_reads (is ▸ key)) ?_
    intro r named
    have value := attributeValue_reads spelled (reads k v l vs rfl rfl)
    obtain ⟨ahead, vs', rfl, closing, -⟩ := id value
    refine Reads.peek_bind rfl ?_
    intro u is
    have front := not_isKeyword_of_value (t := u) spelled other (by rw [is])
    rw [if_neg (by rw [front, is]; exact not_or.mpr ⟨closing, Bool.false_ne_true⟩)]
    refine (value.bind fun r' same => Reads.pure ?_).next
    rw [bareAttribute, bareAttribute, Keyword.bare, Keyword.bare, named, same]

/-- An annotated term is read when the term and the values are. -/
theorem attributed_reads {term : Term} {attributes : List Attribute} (term_reads : TermReads term)
    (values_read : ∀ k v, .mk k (some v) ∈ attributes → TermReads v) (pos : Option Pos) :
    TermReads (.attributed term attributes pos) := by
  rintro _ after bound ⟨some, ts, as, rfl, term_spelled, spelled⟩ fits
  refine readsAt_parenthesised fits ?_
  intro bound t is fits
  simp only [List.length_append, List.length_cons] at fits
  unfold termOf
  rw [if_neg (by simp [is]), if_neg (fun other => other is)]
  refine Reads.next_bind ?_
  intro head head_is
  simp only [head_is, reduceCtorEq, Lexeme.plain.injEq, String.reduceEq, ↓reduceIte]
  show Reads _ (ts ++ as ++ [.closing]) after _
  rw [List.append_assoc]
  have reads := term_reads ts (as ++ [.closing] ++ after) bound term_spelled (by
    simp only [List.length_append, List.length_cons, List.length_nil]
    omega)
  refine ReadsAt.next_bind reads fun r same_term => Reads.remaining_bind ?_
  refine Reads.last_bind (until_reads (f := bareAttribute) (g := bareAttribute)
    (attributes_spelled.mp spelled) _ (length_lt_closed _ _) ?_) ?_
  · intro a is cs here later spelled more shorter
    refine attributeOf_reads spelled more ?_
    rintro k v l vs rfl rfl value_spelled
    simp only [List.length_cons] at shorter
    refine values_read k v is _ _ _ value_spelled ?_
    simp only [List.length_append, List.length_cons]
    omega
  · rintro ⟨values, close⟩ ⟨same, -⟩
    show Reads (if values.isEmpty then _ else _) _ _ _
    rw [if_neg (isEmpty_of_map (by simpa using some) same)]
    refine Reads.span_bind fun pos => Reads.pure ?_
    rw [Term.bare, Term.bare, attributesBare_eq_map, attributesBare_eq_map, same, same_term]

/-! ## All terms -/

mutual

/-- **A spelling of a term is read as that term.** -/
theorem term_reads : (u : Term) → TermReads u
  | .numeral _ _ | .hex _ _ | .binary _ _ | .symbol _ =>
    termReads_of_one fun _ ⟨l, same, _⟩ => ⟨l, same⟩
  | .decimal _ _ | .keyword _ => termReads_of_one fun _ ⟨same, _⟩ => ⟨_, same⟩
  | .string _ _ => termReads_of_one fun _ same => ⟨_, same⟩
  | .qualified s σ pos => qualified_reads s σ pos
  | .indexed s indices pos => indexed_reads s indices pos
  | .apply head args pos => apply_reads (terms_read args) head pos
  | .quantified q parameters body pos => quantified_reads (term_reads body) q parameters pos
  | .letIn bindings body pos => letIn_reads (bindings_read bindings) (term_reads body) pos
  | .attributed term attributes pos =>
    attributed_reads (term_reads term) (attributes_read attributes) pos
  | .error _ _ | .sort _ | .declaration _ | .binding _ | .attr _ => fun _ _ _ none => absurd none id

theorem terms_read : (ts : List Term) → ∀ t ∈ ts, TermReads t
  | [], _, is => absurd is List.not_mem_nil
  | t :: ts, r, is => (List.mem_cons.mp is).elim (fun same => same ▸ term_reads t) (terms_read ts r)

theorem bindings_read : (bs : List Binding) → ∀ s t, .mk s t ∈ bs → TermReads t
  | [], _, _, is => absurd is List.not_mem_nil
  | .mk _ t :: bs, s', t', is => (List.mem_cons.mp is).elim
      (fun same => (Binding.mk.inj same).2 ▸ term_reads t) (bindings_read bs s' t')

theorem attributes_read : (as : List Attribute) → ∀ k v, .mk k (some v) ∈ as → TermReads v
  | [], _, _, is => absurd is List.not_mem_nil
  | .mk _ none :: as, k', v', is => (List.mem_cons.mp is).elim nofun (attributes_read as k' v')
  | .mk _ (some v) :: as, k', v', is => (List.mem_cons.mp is).elim
      (fun same => Option.some.inj (Attribute.mk.inj same).2 ▸ term_reads v)
      (attributes_read as k' v')

end

/-- A term is read with the number of tokens left as the bound. -/
theorem termAt_reads (spelled : u.Spelled ls) :
    ReadsAt (fun t => remaining >>= fun bound => termOf bound t) ls after fun r =>
      r.bare = u.bare :=
  ReadsAt.bounded fun bound fits => term_reads u ls after bound spelled fits

/-- The next tokens are read as the term that they spell. -/
theorem nextTerm_reads (spelled : u.Spelled ls) : Reads term ls after fun r => r.bare = u.bare :=
  (termAt_reads spelled).next

end SmtSession.Reader
