import SmtSession.Proofs.Dialect.Rendering

/-!
# Desugaring gives a normal form

**A direct application** has an operator that is written as it stands: it is applied to as
many arguments as it is meant to, and is none of those that desugaring takes away.
`arrange_of_direct` says that desugaring leaves it alone, and `arrange_closed` that it makes
no other applications. So what holds of a zero and of direct applications to arguments that
it holds of is true of what an operator is desugared to; every fact about desugared terms
here is proved that way.

Two of them: a term that is desugared once more stays as it is, and a dialect that spells a
term spells the desugared term the same.
-/

namespace SmtSession

namespace Term

/-- An operator is written as it stands in front of so many arguments. -/
structure Direct (operator : String) (count : Nat) : Prop where
  some : 0 < count
  binary : operator ∈ binaryOperators → count = 2
  exclusive : operator ≠ "xor"
  distinct : operator ≠ "distinct"
  negation : operator = "-" → count ≠ 1

/-- A direct application is not rearranged. -/
theorem arrange_of_direct {s : Symbol} {args : List Term} {pos : Option Pos}
    (direct : Direct s.name args.length) : arrange s args pos = .apply (.symbol s) args pos := by
  obtain ⟨a, as, rfl⟩ := List.exists_cons_of_length_pos direct.some
  have two (binary : s.name ∈ binaryOperators) : ∃ b, as = [b] :=
    List.length_eq_one_iff.mp (Nat.succ.inj (direct.binary binary))
  unfold arrange
  by_cases compares : s.name ∈ comparisons
  · obtain ⟨b, rfl⟩ := two (List.mem_cons_of_mem _ compares)
    rw [if_pos compares]
    rfl
  · rw [if_neg compares, if_neg direct.distinct]
    by_cases implies : s.name = "=>"
    · obtain ⟨b, rfl⟩ := two (implies ▸ List.mem_cons_self)
      simp only [if_neg direct.exclusive, if_pos implies]
      rfl
    · have several : ¬ (s.name = "-" ∧ as = []) := fun alone =>
        direct.negation alone.1 (by rw [alone.2]; rfl)
      simp only [if_neg direct.exclusive, if_neg implies, if_neg several]

/-! ## What is true of a desugared application -/

section

variable {P : Term → Prop} {s : Symbol} {args : List Term} {pos : Option Pos}

/-- Applications of these operators are direct, and inherit `P` from their arguments. -/
def Inherits (P : Term → Prop) (names : List String) : Prop :=
  ∀ (s : Symbol) (args : List Term) (pos : Option Pos), s.name ∈ names →
    Direct s.name args.length → (∀ a ∈ args, P a) → P (.apply (.symbol s) args pos)

theorem Inherits.two {names : List String} (inherits : Inherits P names) {a b : Term}
    (is : s.name ∈ names) (exclusive : s.name ≠ "xor") (distinct : s.name ≠ "distinct")
    (first : P a) (second : P b) : P (.apply (.symbol s) [a, b] pos) :=
  inherits s [a, b] pos is ⟨Nat.two_pos, fun _ => rfl, exclusive, distinct, fun _ => nofun⟩
    (by simp [first, second])

/-- A conjunction of one or more. -/
theorem Inherits.conjunction {names : List String} (inherits : Inherits P names)
    (is : "and" ∈ names) {ts : List Term} (some : ts ≠ []) (all : ∀ t ∈ ts, P t) :
    P (conjunction ts) := by
  have several (ts : List Term) (some : ts ≠ []) (all : ∀ t ∈ ts, P t) : P (operation "and" ts) :=
    inherits { name := "and" } ts none is
      ⟨List.length_pos_iff.mpr some, fun is => absurd is (by decide : "and" ∉ binaryOperators),
        by decide, by decide, fun is => absurd is (by decide : "and" ≠ "-")⟩ all
  unfold Term.conjunction
  split
  · exact all _ List.mem_cons_self
  · exact several ts some all

/-- A conjunction over pairs of arguments. -/
theorem Inherits.pairs {names : List String} (inherits : Inherits P names) (is : s.name ∈ names)
    (and_is : "and" ∈ names) (exclusive : s.name ≠ "xor") (distinct : s.name ≠ "distinct")
    {ps : List (Term × Term)} (some : ps ≠ [])
    (members : ∀ a b, (a, b) ∈ ps → a ∈ args ∧ b ∈ args) (all : ∀ a ∈ args, P a) :
    P (Term.conjunction (ps.map fun (a, b) => .apply (.symbol s) [a, b] pos)) := by
  refine inherits.conjunction and_is (by simpa using some) ?_
  intro t there
  obtain ⟨⟨a, b⟩, pair, rfl⟩ := List.mem_map.mp there
  obtain ⟨first, second⟩ := members a b pair
  exact inherits.two is exclusive distinct (all a first) (all b second)

theorem Inherits.foldl {names : List String} (inherits : Inherits P names) (is : "/=" ∈ names)
    (as : List Term) (a : Term) (first : P a) (all : ∀ b ∈ as, P b) :
    P (as.foldl (fun acc b => operation "/=" [acc, b]) a) := by
  induction as generalizing a with
  | nil => exact first
  | cons b bs ih =>
    obtain ⟨second, all⟩ := List.forall_mem_cons.mp all
    exact ih _ (inherits.two is (by decide) (by decide) first second) all

theorem Inherits.nestRight {names : List String} (inherits : Inherits P names)
    (is : s.name ∈ names) (exclusive : s.name ≠ "xor") (distinct : s.name ≠ "distinct")
    (as : List Term) (a : Term) (first : P a) (all : ∀ b ∈ as, P b) :
    P (Term.nestRight (fun b c => .apply (.symbol s) [b, c] pos) a as) := by
  induction as generalizing a with
  | nil => exact first
  | cons b bs ih =>
    obtain ⟨second, all⟩ := List.forall_mem_cons.mp all
    exact inherits.two is exclusive distinct first (ih b second all)

/-- Two or more have neighbours, and make pairs. -/
theorem pairs_ne_nil {as : List α} (enough : 2 ≤ as.length) :
    Dialect.neighbours as ≠ [] ∧ Dialect.pairs as ≠ [] := by
  match as with
  | a :: b :: as => exact ⟨nofun, nofun⟩

/-- **What an operator is desugared to is made of direct applications**, of the operator
itself, of conjunctions and of disequalities, with a zero that may be put in front. -/
theorem arrange_closed (inherits : Inherits P [s.name, "and", "/="]) (zero : P (.numeral 0 none))
    (enough : EnoughFor s.name args.length) (all : ∀ a ∈ args, P a) : P (arrange s args pos) := by
  have own : s.name ∈ [s.name, "and", "/="] := List.mem_cons_self
  obtain ⟨positive, two⟩ := enough
  unfold arrange
  by_cases compares : s.name ∈ comparisons
  · rw [if_pos compares]
    refine inherits.pairs own (by simp) (fun same => ?_) (fun same => ?_)
      (pairs_ne_nil (two (.inl compares))).1 (fun a b => mem_of_mem_neighbours) all
    · exact absurd compares (by rw [same]; decide)
    · exact absurd compares (by rw [same]; decide)
  rw [if_neg compares]
  by_cases distinct : s.name = "distinct"
  · rw [if_pos distinct]
    exact inherits.pairs (s := { name := "/=" }) (by simp) (by simp) (by decide) (by decide)
      (pairs_ne_nil (two (.inr distinct))).2 (fun a b => mem_of_mem_pairs) all
  rw [if_neg distinct]
  obtain ⟨a, as, rfl⟩ := List.exists_cons_of_length_pos positive
  obtain ⟨first, more⟩ := List.forall_mem_cons.mp all
  by_cases exclusive : s.name = "xor"
  · simp only [if_pos exclusive]
    exact inherits.foldl (by simp) as a first more
  by_cases implies : s.name = "=>"
  · simp only [if_neg exclusive, if_pos implies]
    exact inherits.nestRight own exclusive distinct as a first more
  by_cases negation : s.name = "-" ∧ as = []
  · simp only [if_neg exclusive, if_neg implies, if_pos negation]
    exact inherits.two own exclusive distinct zero first
  · simp only [if_neg exclusive, if_neg implies, if_neg negation]
    refine inherits s (a :: as) pos own ⟨positive, fun is => ?_, exclusive, distinct,
      fun minus alone => negation ⟨minus, ?_⟩⟩ all
    · rcases List.mem_cons.mp is with is | is
      · exact absurd is implies
      · exact absurd is compares
    · exact List.length_eq_zero_iff.mp (Nat.succ.inj alone)

end

/-! ## Desugaring once more -/

theorem enough_desugarAll {operator : String} {args : List Term}
    (enough : EnoughFor operator args.length) : EnoughFor operator (desugarAll args).length := by
  rwa [desugarAll_eq_map, List.length_map]

mutual

/-- **A desugared term stays as it is** when it is desugared once more. -/
theorem desugar_desugar : (t : Term) → t.Admitted → t.desugar.desugar = t.desugar
  | .apply head args pos, ⟨⟨s, is, enough⟩, admitted⟩ => by
    subst is
    refine arrange_closed (P := fun u => u.desugar = u) ?_ rfl (enough_desugarAll enough)
      (desugar_desugarAll args admitted)
    intro r as pos _ direct all
    have same : desugarAll as = as := by
      rw [desugarAll_eq_map, List.map_congr_left all, List.map_id']
    show arrange r (desugarAll as) pos = _
    rw [same, arrange_of_direct direct]
  | .quantified _ _ body _, admitted => by
    simp only [desugar, desugar_desugar body admitted]
  | .letIn bindings body _, ⟨bound, admitted⟩ => by
    simp only [desugar, desugar_desugar body admitted, desugar_desugarBindings bindings bound]
  | .attributed term _ _, admitted => desugar_desugar term admitted
  | .numeral _ _, _ => rfl
  | .decimal _ _, _ => rfl
  | .hex _ _, _ => rfl
  | .binary _ _, _ => rfl
  | .string _ _, _ => rfl
  | .symbol _, _ => rfl

theorem desugar_desugarAll : (ts : List Term) → AdmittedAll ts →
    ∀ u ∈ desugarAll ts, u.desugar = u
  | [], _ => nofun
  | t :: ts, ⟨here, later⟩ =>
    List.forall_mem_cons.mpr ⟨desugar_desugar t here, desugar_desugarAll ts later⟩

theorem desugar_desugarBindings : (bs : List Binding) → AdmittedBindings bs →
    desugarBindings (desugarBindings bs) = desugarBindings bs
  | [], _ => rfl
  | .mk s t :: bs, ⟨here, later⟩ => by
    simp only [desugarBindings, desugar_desugar t here, desugar_desugarBindings bs later]

end

end Term

/-! ## Spelling once more -/

namespace Dialect

open Term (Direct arrange_of_direct)

variable {d : Dialect}

/-- A direct application has arguments enough. -/
theorem tooFew?_of_direct (shares : d.SharesOperators) {name : String} {count : Nat}
    (direct : Direct name count) : d.tooFew? name count = none := by
  have enough (compares : name ∈ Term.comparisons) : ¬ count < 2 := by
    rw [direct.binary (List.mem_cons_of_mem _ compares)]
    decide
  have other : ¬ name = smtLib.distinct := direct.distinct
  unfold tooFew?
  simp only [shares.kept, shares.chainable, shares.leftAssociative, shares.rightAssociative,
    shares.distinct, if_neg other]
  by_cases compares : name ∈ Term.comparisons
  · simp only [if_pos compares, if_neg (enough compares), ite_self]
  · simp only [if_neg compares, ite_self]

theorem spellAll_of_each {ts : List Term} (each : ∀ t ∈ ts, d.spell t = .ok (d.write t)) :
    d.spellAll ts = .ok (ts.map d.write) := by
  induction ts with
  | nil => rfl
  | cons t ts ih =>
    obtain ⟨here, later⟩ := List.forall_mem_cons.mp each
    rw [spellAll, here, ih later]
    rfl

/-- A direct application is spelled as it is written. -/
theorem spell_direct (shares : d.SharesOperators) {s : Symbol} {args : List Term}
    {pos : Option Pos} (direct : Direct s.name args.length)
    (each : ∀ a ∈ args, d.spell a = .ok (d.write a)) :
    d.spell (.apply (.symbol s) args pos) = .ok (d.write (.apply (.symbol s) args pos)) := by
  have some : args ≠ [] := List.length_pos_iff.mp direct.some
  have fine : d.tooFew? (SExpr.text (.atom s.name)) args.length = none :=
    tooFew?_of_direct shares direct
  have head : d.spell (.symbol s) = .ok (.atom s.name) := rfl
  rw [spell, if_neg (by simpa using some)]
  refine bind_eq_ok.mpr ⟨_, head, ?_⟩
  rw [fine]
  refine bind_eq_ok.mpr ⟨_, spellAll_of_each each, ?_⟩
  rw [combine_write shares s some pos, arrange_of_direct direct]
  rfl

mutual

/-- **A desugared term is spelled as the term is**: there is nothing left to desugar. -/
theorem spell_desugar (shares : d.SharesOperators) : (t : Term) → t.Proper → {e : SExpr} →
    d.spell t = .ok e → d.spell t.desugar = .ok e
  | .apply head args pos, proper, e, spelled => by
    obtain ⟨⟨⟨s, is, enough⟩, -⟩, rfl⟩ := spell_eq_write shares _ proper spelled
    subst is
    have args_spelled : ∃ es, d.spellAll args = .ok es := by
      unfold spell at spelled
      split at spelled
      · cases spelled
      · obtain ⟨name, -, spelled⟩ := bind_eq_ok.mp spelled
        split at spelled
        · cases spelled
        · obtain ⟨es, args_spelled, -⟩ := bind_eq_ok.mp spelled
          exact ⟨es, args_spelled⟩
    obtain ⟨es, args_spelled⟩ := args_spelled
    have each := spellAll_desugar shares args proper.2 args_spelled
    exact Term.arrange_closed (P := fun u => d.spell u = .ok (d.write u))
      (fun r as pos _ direct each => spell_direct shares direct each) rfl
      (Term.enough_desugarAll enough) each
  | .quantified q parameters body pos, proper, _, spelled => by
    obtain ⟨decls, decls_spelled, spelled⟩ := bind_eq_ok.mp spelled
    obtain ⟨inner, body_spelled, same⟩ := bind_eq_ok.mp spelled
    rw [Term.desugar, spell, decls_spelled, ← same, spell_desugar shares body proper body_spelled]
    rfl
  | .letIn bindings body pos, ⟨bound, proper⟩, _, spelled => by
    obtain ⟨es, bindings_spelled, spelled⟩ := bind_eq_ok.mp spelled
    obtain ⟨inner, body_spelled, same⟩ := bind_eq_ok.mp spelled
    rw [Term.desugar, spell, spellBindings_desugar shares bindings bound bindings_spelled, ← same,
      spell_desugar shares body proper body_spelled]
    rfl
  | .attributed term _ _, proper, _, spelled => spell_desugar shares term proper spelled
  | .numeral _ _, _, _, spelled => spelled
  | .decimal _ _, _, _, spelled => spelled
  | .hex _ _, _, _, spelled => spelled
  | .binary _ _, _, _, spelled => spelled
  | .string _ _, _, _, spelled => spelled
  | .symbol _, _, _, spelled => spelled
  | .keyword _, _, _, spelled => by cases spelled
  | .qualified _ _ _, _, _, spelled => by cases spelled
  | .indexed _ _ _, _, _, spelled => by cases spelled
  | .error _ _, _, _, spelled => by cases spelled

theorem spellAll_desugar (shares : d.SharesOperators) : (ts : List Term) → Term.ProperAll ts →
    {es : List SExpr} → d.spellAll ts = .ok es →
    ∀ u ∈ Term.desugarAll ts, d.spell u = .ok (d.write u)
  | [], _, _, _ => nofun
  | t :: ts, ⟨proper, later⟩, _, spelled => by
    obtain ⟨e, first, spelled⟩ := bind_eq_ok.mp spelled
    obtain ⟨es, rest, -⟩ := bind_eq_ok.mp spelled
    refine List.forall_mem_cons.mpr ⟨?_, spellAll_desugar shares ts later rest⟩
    rw [spell_desugar shares t proper first, (spell_eq_write shares t proper first).2]

theorem spellBindings_desugar (shares : d.SharesOperators) : (bs : List Binding) →
    Term.ProperBindings bs → {es : List SExpr} → d.spellBindings bs = .ok es →
    d.spellBindings (Term.desugarBindings bs) = .ok es
  | [], _, _, spelled => spelled
  | .mk s t :: bs, ⟨proper, later⟩, _, spelled => by
    obtain ⟨e, first, spelled⟩ := bind_eq_ok.mp spelled
    obtain ⟨es, rest, same⟩ := bind_eq_ok.mp spelled
    rw [Term.desugarBindings, spellBindings, spell_desugar shares t proper first,
      ← same, spellBindings_desugar shares bs later rest]
    rfl

end

end Dialect

end SmtSession
