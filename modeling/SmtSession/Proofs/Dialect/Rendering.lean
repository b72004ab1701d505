import SmtSession.Proofs.Dialect.Desugaring
import SmtSession.Proofs.Session.Wires

/-!
# Spelling is desugaring, then writing

**To write a term** is to put each node down as it stands, under the dialect's
names for functions and sorts: no operator is treated in a way of its own.
`spell_eq_write` says that a dialect spells a term by writing the desugared term,
and that it spells only terms that are admitted. The dialects meant are those
that share the operators of the input language, so what is written differs
between them in names alone.
-/

namespace SmtSession.Dialect

open Term (EnoughFor arrange comparisons)

/-! ## Writing -/

variable (d : Dialect)

mutual

/-- A sort as it stands. One that the engine does not have is not written. -/
def writeSort : SmtSort → SExpr
  | .bool _ => .atom d.boolSort
  | .family name _ _ _ => d.sortAtom name
  | .function args result _ => arrow (writeSorts args) (writeSort result)
  | _ => .list []

/-- Several sorts as they stand. -/
def writeSorts : List SmtSort → List SExpr
  | [] => []
  | s :: ss => writeSort s :: writeSorts ss

end

/-- A variable with its sort. -/
def writeDeclaration (decl : Declaration) : SExpr :=
  .typed (.atom decl.parameter.name) (d.writeSort decl.sort)

/-- The engine's name for a function. -/
def rename (name : String) : String :=
  (d.functionNames.lookup name).getD name

mutual

/-- A term as it stands, under the engine's names. What cannot be written is
not. -/
def write : Term → SExpr
  | .numeral value _ => .atom (toString value)
  | .decimal text _ => .atom text
  | .hex digits _ => .atom ("#x" ++ digits)
  | .binary digits _ => .atom ("#b" ++ digits)
  | .string content _ => .atom (Text.Quoted.encode content)
  | .symbol s => .atom s.name
  | .apply (.symbol s) args _ => .call (.atom (d.rename s.name)) (writeAll args)
  | .quantified q parameters body _ =>
    .list [.atom q.word, .list (parameters.map d.writeDeclaration), write body]
  | .letIn bindings body _ => .list [.atom "let", .list (writeBindings bindings), write body]
  | _ => .list []

/-- Several terms as they stand. -/
def writeAll : List Term → List SExpr
  | [] => []
  | t :: ts => write t :: writeAll ts

/-- Bindings as they stand. -/
def writeBindings : List Binding → List SExpr
  | [] => []
  | .mk s t :: bs => .call (.atom s.name) [write t] :: writeBindings bs

end

/-! ## Dialects with the operators of the input language -/

/-- The dialect treats operators as the input language does, and renames none of
those that it treats or introduces. -/
structure SharesOperators : Prop where
  kept : d.kept = smtLib.kept
  chainable : d.chainable = comparisons
  leftAssociative : d.leftAssociative = smtLib.leftAssociative
  rightAssociative : d.rightAssociative = smtLib.rightAssociative
  distinct : d.distinct = smtLib.distinct
  notEqual : d.notEqual = smtLib.notEqual
  conjunction : d.conjunction = smtLib.conjunction
  negation : d.negation = smtLib.negation
  zero : d.zero = smtLib.zero
  own : ∀ name ∈ "or" :: "and" :: "=>" :: "/=" :: "-" :: comparisons, d.rename name = name

theorem smtLib_sharesOperators : smtLib.SharesOperators :=
  ⟨rfl, rfl, rfl, rfl, rfl, rfl, rfl, rfl, rfl, fun _ _ => rfl⟩

theorem yices_sharesOperators : yices.SharesOperators :=
  ⟨rfl, rfl, rfl, rfl, rfl, rfl, rfl, rfl, rfl, by decide⟩

theorem sharesOperators_of_known {d : Dialect} (known : d ∈ [smtLib, yices]) :
    d.SharesOperators := by
  rcases List.mem_cons.mp known with rfl | is
  · exact smtLib_sharesOperators
  · rw [List.mem_singleton.mp is]
    exact yices_sharesOperators

/-- A comparison is none of the operators that are kept. -/
theorem not_kept_of_comparison {name : String} (compares : name ∈ comparisons) :
    name ∉ smtLib.kept := by
  intro kept
  rcases List.mem_cons.mp kept with is | is
  · exact absurd compares (by rw [is]; decide)
  · exact absurd compares (by rw [List.mem_singleton.mp is]; decide)

variable {d}

/-! ## Sorts and variables -/

mutual

/-- A sort is spelled as it stands. -/
theorem spellSort_eq_ok : (s : SmtSort) → {e : SExpr} → d.spellSort s = .ok e → e = d.writeSort s
  | .bool _, _, spelled => (Except.ok.inj spelled).symm
  | .family name args indices pos, _, spelled => by
    unfold spellSort at spelled
    split at spelled
    · exact (Except.ok.inj spelled).symm
    · cases spelled
  | .abbreviation _ _ _ _, _, spelled => by cases spelled
  | .function args result pos, _, spelled => by
    unfold spellSort at spelled
    split at spelled
    · obtain ⟨as, args_spelled, spelled⟩ := bind_eq_ok.mp spelled
      obtain ⟨r, result_spelled, same⟩ := bind_eq_ok.mp spelled
      cases same
      rw [spellSorts_eq_ok args args_spelled, spellSort_eq_ok result result_spelled]
      rfl
    · cases spelled
  | .parameter _ _, _, spelled => by cases spelled

theorem spellSorts_eq_ok : (ss : List SmtSort) → {es : List SExpr} → d.spellSorts ss = .ok es →
    es = d.writeSorts ss
  | [], _, spelled => (Except.ok.inj spelled).symm
  | s :: ss, _, spelled => by
    obtain ⟨e, first, spelled⟩ := bind_eq_ok.mp spelled
    obtain ⟨es, rest, same⟩ := bind_eq_ok.mp spelled
    cases same
    rw [spellSort_eq_ok s first, spellSorts_eq_ok ss rest]
    rfl

end

/-- Variables are spelled as they stand, in their order. -/
theorem spellDeclarations_eq_ok {decls : List Declaration} {es : List SExpr}
    (spelled : d.spellDeclarations decls = .ok es) : es = decls.map d.writeDeclaration := by
  induction decls generalizing es with
  | nil => exact (Except.ok.inj spelled).symm
  | cons decl decls ih =>
    obtain ⟨e, first, spelled⟩ := bind_eq_ok.mp spelled
    obtain ⟨es, rest, same⟩ := bind_eq_ok.mp spelled
    obtain ⟨sort, sort_spelled, typed⟩ := bind_eq_ok.mp first
    cases same
    cases typed
    rw [ih rest, spellSort_eq_ok decl.sort sort_spelled]
    rfl

/-! ## Operators -/

theorem writeAll_eq_map (ts : List Term) : d.writeAll ts = ts.map d.write := by
  induction ts with
  | nil => rfl
  | cons t ts ih => rw [writeAll, ih]; rfl

/-- Neighbours are those of the images. -/
theorem neighbours_map (f : α → β) (as : List α) :
    neighbours (as.map f) = (neighbours as).map fun (a, b) => (f a, f b) := by
  induction as with
  | nil => rfl
  | cons a as ih =>
    cases as with
    | nil => rfl
    | cons b bs => exact congrArg _ ih

/-- Pairs are those of the images. -/
theorem pairs_map (f : α → β) (as : List α) :
    pairs (as.map f) = (pairs as).map fun (a, b) => (f a, f b) := by
  induction as with
  | nil => rfl
  | cons a as ih =>
    rw [List.map_cons, pairs, pairs, ih, List.map_append, List.map_map, List.map_map]
    rfl

/-- An application is written under the engine's name for its operator. -/
theorem write_apply (s : Symbol) (args : List Term) (pos : Option Pos) :
    d.write (.apply (.symbol s) args pos) = .call (.atom (d.rename s.name)) (args.map d.write) := by
  rw [write, writeAll_eq_map]

section

variable (shares : d.SharesOperators)

include shares

/-- A conjunction is written as one. -/
theorem write_conjunction (ts : List Term) :
    d.write (Term.conjunction ts) = d.conjoin (ts.map d.write) := by
  have several (ts : List Term) :
      d.write (Term.operation "and" ts) = .call (.atom d.conjunction) (ts.map d.write) := by
    rw [Term.operation, write_apply, shares.own "and" (by decide), shares.conjunction]
    rfl
  cases ts with
  | nil => exact several []
  | cons t ts =>
    cases ts with
    | nil => rfl
    | cons u us => exact several (t :: u :: us)

/-- A conjunction over pairs is written as one. -/
theorem write_pairs {s : Symbol} (own : d.rename s.name = s.name) (pos : Option Pos)
    (ps : List (Term × Term)) :
    d.write (Term.conjunction (ps.map fun (a, b) => .apply (.symbol s) [a, b] pos)) =
      d.conjoinPairs (.atom s.name) (ps.map fun (a, b) => (d.write a, d.write b)) := by
  rw [write_conjunction shares, conjoinPairs, List.map_map, List.map_map]
  refine congrArg d.conjoin (List.map_congr_left fun (a, b) _ => ?_)
  show d.write (.apply (.symbol s) [a, b] pos) = _
  rw [write_apply, own]
  rfl

omit shares in
/-- What is nested to the left is written from the left. -/
theorem write_foldl (own : d.rename "/=" = "/=") (as : List Term) (a : Term) :
    d.write (as.foldl (fun acc b => Term.operation "/=" [acc, b]) a) =
      foldLeft (.atom "/=") ((a :: as).map d.write) := by
  induction as generalizing a with
  | nil => rfl
  | cons b bs ih =>
    rw [List.foldl_cons, ih, Term.operation, List.map_cons, write_apply, own]
    rfl

omit shares in
/-- What is nested to the right is written to the right. -/
theorem write_nestRight {s : Symbol} (own : d.rename s.name = s.name) (pos : Option Pos)
    (as : List Term) (a : Term) :
    d.write (Term.nestRight (fun b c => .apply (.symbol s) [b, c] pos) a as) =
      foldRight (.atom s.name) ((a :: as).map d.write) := by
  induction as generalizing a with
  | nil => rfl
  | cons b bs ih =>
    have inner := ih b
    rw [Term.nestRight, write_apply, own, List.map_cons, List.map_cons, List.map_nil, inner]
    rfl

/-- How an operator of no class is spelled: under its name, and from zero if it
is a minus alone. -/
theorem combine_other {name : String} (compares : name ∉ comparisons) (distinct : name ≠ "distinct")
    (exclusive : name ≠ "xor") (implies : name ≠ "=>") (es : List SExpr) :
    d.combine (.atom name) es =
      if name = "-" ∧ es.length = 1 then .call (.atom name) (.atom "0" :: es)
      else .call (.atom (d.rename name)) es := by
  have unfolded : smtLib.leftAssociative.lookup name = none := by
    show List.lookup name [("xor", "/=")] = none
    rw [List.lookup_cons, beq_eq_false_iff_ne.mpr exclusive]
    rfl
  have right : name ∉ smtLib.rightAssociative := fun is => implies (List.mem_singleton.mp is)
  unfold combine
  simp only [SExpr.text, shares.kept, shares.chainable, shares.leftAssociative,
    shares.rightAssociative, shares.distinct, shares.negation, shares.zero, unfolded]
  rw [if_neg compares, if_neg right]
  by_cases kept : name ∈ smtLib.kept
  · have class_ : name = "or" ∨ name = "and" := by simpa [smtLib] using kept
    have named : d.rename name = name := shares.own _ (by rcases class_ with is | is <;> simp [is])
    have other : ¬ (name = "-" ∧ es.length = 1) := by
      rintro ⟨rfl, -⟩
      exact absurd kept (by decide)
    rw [if_pos kept, if_neg other, named]
  · rw [if_neg kept]
    show (if name = "distinct" then _ else if name = "-" ∧ es.length = 1 then _ else _) = _
    rw [if_neg distinct]
    by_cases negation : name = "-" ∧ es.length = 1
    · rw [if_pos negation, if_pos negation]
      rfl
    · rw [if_neg negation, if_neg negation, rename]
      cases d.functionNames.lookup name with
      | none => rfl
      | some target => rfl

/-- **An operator is spelled as what it is desugared to is written.** -/
theorem combine_write (s : Symbol) {args : List Term} (some_args : args ≠ []) (pos : Option Pos) :
    d.combine (.atom s.name) (args.map d.write) = d.write (arrange s args pos) := by
  have own := shares.own
  have disequality := own "/=" (by decide)
  obtain ⟨a, as, rfl⟩ := List.exists_cons_of_ne_nil some_args
  unfold arrange
  by_cases compares : s.name ∈ comparisons
  · rw [if_pos compares, write_pairs shares (own _ (by simp [compares])), ← neighbours_map, combine]
    simp only [SExpr.text, shares.kept, shares.chainable]
    rw [if_neg (not_kept_of_comparison compares), if_pos compares]
  · rw [if_neg compares]
    by_cases distinct : s.name = "distinct"
    · have pairwise := write_pairs shares (s := { name := "/=" }) disequality none (pairs (a :: as))
      rw [if_pos distinct, distinct, combine]
      simp only [SExpr.text, shares.kept, shares.chainable, shares.leftAssociative,
        shares.rightAssociative, shares.distinct, shares.notEqual]
      exact (congrArg _ (pairs_map d.write (a :: as))).trans pairwise.symm
    · rw [if_neg distinct]
      by_cases exclusive : s.name = "xor"
      · simp only [if_pos exclusive]
        rw [write_foldl disequality, exclusive, combine]
        simp only [SExpr.text, shares.kept, shares.chainable, shares.leftAssociative]
        rfl
      · by_cases implies : s.name = "=>"
        · simp only [if_neg exclusive, if_pos implies]
          rw [write_nestRight (own _ (by simp [implies])), implies, combine]
          simp only [SExpr.text, shares.kept, shares.chainable, shares.leftAssociative,
            shares.rightAssociative]
          rfl
        · simp only [if_neg exclusive, if_neg implies]
          rw [combine_other shares compares distinct exclusive implies]
          by_cases negation : s.name = "-" ∧ as = []
          · obtain ⟨minus, rfl⟩ := negation
            rw [if_pos ⟨minus, rfl⟩, if_pos ⟨minus, rfl⟩, write_apply, own _ (by simp [minus])]
            rfl
          · have other : ¬ (s.name = "-" ∧ ((a :: as).map d.write).length = 1) := by
              rintro ⟨minus, alone⟩
              exact negation ⟨minus, by simpa using alone⟩
            rw [if_neg negation, if_neg other, write_apply]

/-- An operator that is not refused has arguments enough. -/
theorem enough_of_tooFew? {name : String} {count : Nat} (some_args : 0 < count)
    (fine : d.tooFew? name count = none) : EnoughFor name count := by
  refine ⟨some_args, fun class_ => Nat.le_of_not_lt fun short => ?_⟩
  unfold tooFew? at fine
  simp only [shares.kept, shares.chainable, shares.leftAssociative, shares.rightAssociative,
    shares.distinct] at fine
  rcases class_ with compares | rfl
  · rw [if_neg (not_kept_of_comparison compares), if_pos compares, if_pos short] at fine
    cases fine
  · rw [if_neg (by decide), if_neg (by decide), if_neg (by decide), if_neg (by decide),
      if_pos (by decide), if_pos short] at fine
    cases fine

end

/-! ## Terms -/

/-- A literal that can be written is written as its text. -/
theorem literal_eq_ok {text : String} {cause : Cause} {pos : Option Pos} {e : SExpr}
    (spelled : d.literal text cause pos = .ok e) : e = .atom text := by
  unfold literal at spelled
  split at spelled
  · exact (Except.ok.inj spelled).symm
  · cases spelled

/-- A proper head that is spelled is a symbol, and is spelled as its name. -/
theorem head_eq_ok {head : Term} {e : SExpr} (proper : head.IsIdentifier)
    (spelled : d.spell head = .ok e) : ∃ s, head = .symbol s ∧ e = .atom s.name := by
  cases head with
  | symbol s => exact ⟨s, rfl, (Except.ok.inj spelled).symm⟩
  | qualified | indexed => cases spelled
  | _ => cases proper

mutual

/-- **A dialect spells a term by writing the desugared term**, and it spells
admitted terms only. The induction is on the term; `combine_write` is the case of
an application. -/
theorem spell_eq_write (shares : d.SharesOperators) : (t : Term) → t.Proper → {e : SExpr} →
    d.spell t = .ok e → t.Admitted ∧ e = d.write t.desugar
  | .numeral _ _, _, _, spelled => ⟨trivial, (Except.ok.inj spelled).symm⟩
  | .decimal _ _, _, _, spelled => ⟨trivial, literal_eq_ok spelled⟩
  | .hex _ _, _, _, spelled => ⟨trivial, literal_eq_ok spelled⟩
  | .binary _ _, _, _, spelled => ⟨trivial, literal_eq_ok spelled⟩
  | .string _ _, _, _, spelled => ⟨trivial, literal_eq_ok spelled⟩
  | .symbol _, _, _, spelled => ⟨trivial, (Except.ok.inj spelled).symm⟩
  | .keyword _, _, _, spelled => by cases spelled
  | .qualified _ _ _, _, _, spelled => by cases spelled
  | .indexed _ _ _, _, _, spelled => by cases spelled
  | .error _ _, _, _, spelled => by cases spelled
  | .apply head args pos, ⟨identifier, proper⟩, _, spelled => by
    unfold spell at spelled
    split at spelled
    · cases spelled
    · next some_args =>
      obtain ⟨name, head_spelled, spelled⟩ := bind_eq_ok.mp spelled
      obtain ⟨s, rfl, rfl⟩ := head_eq_ok identifier head_spelled
      have nonempty : args ≠ [] := fun none => some_args (by rw [none]; rfl)
      split at spelled
      · cases spelled
      · next fine =>
        obtain ⟨es, args_spelled, same⟩ := bind_eq_ok.mp spelled
        obtain ⟨admitted, rfl⟩ := spellAll_eq_write shares args proper args_spelled
        have enough := enough_of_tooFew? shares (List.length_pos_iff.mpr nonempty) fine
        have desugared : Term.desugarAll args ≠ [] := by
          rw [Term.desugarAll_eq_map]
          exact fun none => nonempty (List.map_eq_nil_iff.mp none)
        refine ⟨⟨⟨s, rfl, enough⟩, admitted⟩, ?_⟩
        rw [Term.desugar, ← combine_write shares s desugared pos]
        exact (Except.ok.inj same).symm
  | .quantified q parameters body pos, proper, _, spelled => by
    obtain ⟨decls, decls_spelled, spelled⟩ := bind_eq_ok.mp spelled
    obtain ⟨inner, body_spelled, same⟩ := bind_eq_ok.mp spelled
    obtain ⟨admitted, rfl⟩ := spell_eq_write shares body proper body_spelled
    refine ⟨admitted, ?_⟩
    rw [← Except.ok.inj same, spellDeclarations_eq_ok decls_spelled]
    rfl
  | .letIn bindings body pos, ⟨bound, proper⟩, _, spelled => by
    obtain ⟨es, bindings_spelled, spelled⟩ := bind_eq_ok.mp spelled
    obtain ⟨inner, body_spelled, same⟩ := bind_eq_ok.mp spelled
    obtain ⟨admitted, rfl⟩ := spellBindings_eq_write shares bindings bound bindings_spelled
    obtain ⟨admitted', rfl⟩ := spell_eq_write shares body proper body_spelled
    exact ⟨⟨admitted, admitted'⟩, (Except.ok.inj same).symm⟩
  | .attributed term _ _, proper, _, spelled => spell_eq_write shares term proper spelled

theorem spellAll_eq_write (shares : d.SharesOperators) : (ts : List Term) → Term.ProperAll ts →
    {es : List SExpr} → d.spellAll ts = .ok es →
    Term.AdmittedAll ts ∧ es = (Term.desugarAll ts).map d.write
  | [], _, _, spelled => ⟨trivial, (Except.ok.inj spelled).symm⟩
  | t :: ts, ⟨proper, later⟩, _, spelled => by
    obtain ⟨e, first, spelled⟩ := bind_eq_ok.mp spelled
    obtain ⟨es, rest, same⟩ := bind_eq_ok.mp spelled
    obtain ⟨admitted, rfl⟩ := spell_eq_write shares t proper first
    obtain ⟨admitted', rfl⟩ := spellAll_eq_write shares ts later rest
    exact ⟨⟨admitted, admitted'⟩, (Except.ok.inj same).symm⟩

theorem spellBindings_eq_write (shares : d.SharesOperators) : (bs : List Binding) →
    Term.ProperBindings bs → {es : List SExpr} → d.spellBindings bs = .ok es →
    Term.AdmittedBindings bs ∧ es = d.writeBindings (Term.desugarBindings bs)
  | [], _, _, spelled => ⟨trivial, (Except.ok.inj spelled).symm⟩
  | .mk s t :: bs, ⟨proper, later⟩, _, spelled => by
    obtain ⟨e, first, spelled⟩ := bind_eq_ok.mp spelled
    obtain ⟨es, rest, same⟩ := bind_eq_ok.mp spelled
    obtain ⟨admitted, rfl⟩ := spell_eq_write shares t proper first
    obtain ⟨admitted', rfl⟩ := spellBindings_eq_write shares bs later rest
    exact ⟨⟨admitted, admitted'⟩, (Except.ok.inj same).symm⟩

end

end SmtSession.Dialect
