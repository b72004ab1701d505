import Mathlib.Data.List.Chain
import SmtSession.Proofs.Dialect.Rendering

/-!
# Spelling keeps the meaning of a term

**The value of a term** is given by an interpretation of everything but its
variables, and an assignment to these. A comparison relates each argument to the
next, `distinct` is pairwise, `xor` is nested to the left and `=>` to the right,
a minus alone subtracts from zero, and `/=` of two arguments is disequality. All
other functions are whatever the interpretation makes of them, and so is the
relation of each comparison.

`spell_keeps_meaning` says that a dialect writes a term with the same value under
every interpretation and assignment, and with only binary operators where the
dialect has no others. The value is defined on proper terms and on others alike;
what has no meaning has an unspecified one.
-/

namespace SmtSession

open Term (comparisons EnoughFor arrange)

/-! ## Values -/

/-- What everything in a term stands for, but for its variables. -/
structure Interpretation (V : Type) where
  /-- The value of a proposition. -/
  truth : Prop → V
  numeral : Int → V
  decimal : String → V
  hex : String → V
  binary : String → V
  string : String → V
  /-- The relation of a comparison. -/
  related : String → V → V → Prop
  /-- The values that a variable of a sort can have. -/
  domain : SmtSort → V → Prop
  function : String → List V → V
  /-- Stands for what has no meaning. -/
  unspecified : V
  /-- A conjunction is true when all of its conjuncts are. -/
  conjunction : ∀ ps : List Prop, function "and" (ps.map truth) = truth (∀ p ∈ ps, p)

/-- The values of the variables. -/
abbrev Assignment (V : Type) : Type := String → V

/-- The assignment with one more value. -/
def Assignment.set (ρ : Assignment V) (name : String) (v : V) : Assignment V :=
  fun n => if n = name then v else ρ n

/-- The assignment with several more values. -/
def Assignment.setAll (ρ : Assignment V) (values : List (String × V)) : Assignment V :=
  values.foldl (fun ρ (name, v) => ρ.set name v) ρ

namespace Interpretation

variable (I : Interpretation V)

/-- Binary disequality. -/
def differ (a b : V) : V :=
  I.truth (a ≠ b)

/-- An operator applied to values. -/
def apply (operator : String) (vs : List V) : V :=
  if operator ∈ comparisons then I.truth (vs.IsChain (I.related operator))
  else if operator = "distinct" then I.truth (vs.Pairwise (· ≠ ·))
  else match operator, vs with
  | "xor", v :: vs => vs.foldl I.differ v
  | "=>", v :: vs => Term.nestRight (fun a b => I.function "=>" [a, b]) v vs
  | "-", [v] => I.function "-" [I.numeral 0, v]
  | "/=", [a, b] => I.differ a b
  | _, vs => I.function operator vs

/-- The assignments that differ in the variables alone, each within its sort. -/
def Ranges : List Declaration → Assignment V → Assignment V → Prop
  | [], ρ, ρ' => ρ' = ρ
  | decl :: decls, ρ, ρ' =>
    ∃ v, I.domain decl.sort v ∧ Ranges decls (ρ.set decl.parameter.name v) ρ'

/-- Whether a value is the true one. -/
def Holds (v : V) : Prop :=
  v = I.truth True

/-- A quantifier over what a body is worth under each assignment. -/
def quantify (q : Quantifier) (decls : List Declaration) (ρ : Assignment V)
    (body : Assignment V → V) : V :=
  match q with
  | .universal => I.truth (∀ ρ', I.Ranges decls ρ ρ' → I.Holds (body ρ'))
  | .existential => I.truth (∃ ρ', I.Ranges decls ρ ρ' ∧ I.Holds (body ρ'))

mutual

/-- The value of a term. -/
def value : Term → Assignment V → V
  | .numeral n _, _ => I.numeral n
  | .decimal text _, _ => I.decimal text
  | .hex digits _, _ => I.hex digits
  | .binary digits _, _ => I.binary digits
  | .string content _, _ => I.string content
  | .symbol s, ρ => ρ s.name
  | .apply (.symbol s) args _, ρ => I.apply s.name (values args ρ)
  | .quantified q decls body _, ρ => I.quantify q decls ρ (value body)
  | .letIn bindings body _, ρ => value body (ρ.setAll (boundValues bindings ρ))
  | .attributed term _ _, ρ => value term ρ
  | _, _ => I.unspecified

/-- The values of several terms. -/
def values : List Term → Assignment V → List V
  | [], _ => []
  | t :: ts, ρ => value t ρ :: values ts ρ

/-- The values of bound terms, each under the assignment around the binder. -/
def boundValues : List Binding → Assignment V → List (String × V)
  | [], _ => []
  | .mk s t :: bs, ρ => (s.name, value t ρ) :: boundValues bs ρ

end

theorem values_eq_map (ts : List Term) (ρ : Assignment V) :
    I.values ts ρ = ts.map fun t => I.value t ρ := by
  induction ts with
  | nil => rfl
  | cons t ts ih => rw [values, ih]; rfl

variable {I}

/-! ## Operators -/

theorem value_apply (s : Symbol) (args : List Term) (pos : Option Pos) (ρ : Assignment V) :
    I.value (.apply (.symbol s) args pos) ρ = I.apply s.name (args.map fun t => I.value t ρ) := by
  rw [value, values_eq_map]

theorem apply_comparison {operator : String} (compares : operator ∈ comparisons) (vs : List V) :
    I.apply operator vs = I.truth (vs.IsChain (I.related operator)) :=
  if_pos compares

theorem apply_and (vs : List V) : I.apply "and" vs = I.function "and" vs := rfl

/-- A conjunction of truth values is the truth value of the conjunction, also when
there is only one and no operator is written. -/
theorem value_conjunction {ts : List Term} {ps : List Prop} {ρ : Assignment V}
    (conjuncts : ts.map (fun t => I.value t ρ) = ps.map I.truth) :
    I.value (Term.conjunction ts) ρ = I.truth (∀ p ∈ ps, p) := by
  have several (us : List Term) (same : us = ts) :
      I.value (Term.operation "and" us) ρ = I.truth (∀ p ∈ ps, p) := by
    subst same
    rw [Term.operation, value_apply, apply_and, conjuncts, I.conjunction]
  cases ts with
  | nil => exact several [] rfl
  | cons t ts =>
    cases ts with
    | cons u us => exact several (t :: u :: us) rfl
    | nil =>
      cases ps with
      | nil => cases conjuncts
      | cons p ps =>
        obtain ⟨here, none⟩ := List.cons.inj conjuncts
        rw [List.map_nil, eq_comm, List.map_eq_nil_iff] at none
        subst none
        have alone : (∀ q ∈ [p], q) = p :=
          propext ⟨fun all => all p (List.mem_singleton_self p),
            fun h q is => (List.mem_singleton.mp is).symm ▸ h⟩
        rw [alone]
        exact here

/-- A conjunction over pairs says that all of them are related. -/
theorem value_pairs {s : Symbol} {R : V → V → Prop}
    (relates : ∀ a b, I.apply s.name [a, b] = I.truth (R a b))
    (ps : List (Term × Term)) (pos : Option Pos) (ρ : Assignment V) :
    I.value (Term.conjunction (ps.map fun (a, b) => .apply (.symbol s) [a, b] pos)) ρ =
      I.truth (∀ p ∈ ps.map fun (a, b) => (I.value a ρ, I.value b ρ), R p.1 p.2) := by
  have conjuncts : (ps.map fun (a, b) => Term.apply (.symbol s) [a, b] pos).map
      (fun t => I.value t ρ) =
      (ps.map fun (a, b) => R (I.value a ρ) (I.value b ρ)).map I.truth := by
    rw [List.map_map, List.map_map]
    refine List.map_congr_left ?_
    rintro ⟨a, b⟩ _
    show I.value (.apply (.symbol s) [a, b] pos) ρ = _
    rw [value_apply]
    exact relates _ _
  rw [value_conjunction conjuncts]
  simp only [List.forall_mem_map]

/-- Neighbours are related when the list is a chain. -/
theorem forall_neighbours (R : V → V → Prop) (vs : List V) :
    (∀ p ∈ Dialect.neighbours vs, R p.1 p.2) ↔ vs.IsChain R := by
  induction vs with
  | nil => simp [Dialect.neighbours]
  | cons v vs ih =>
    cases vs with
    | nil => simp [Dialect.neighbours]
    | cons w ws => rw [Dialect.neighbours, List.forall_mem_cons, ih, List.isChain_cons_cons]

/-- Pairs are related when the list is so pairwise. -/
theorem forall_pairs (R : V → V → Prop) (vs : List V) :
    (∀ p ∈ Dialect.pairs vs, R p.1 p.2) ↔ vs.Pairwise R := by
  induction vs with
  | nil => simp [Dialect.pairs]
  | cons v vs ih =>
    rw [Dialect.pairs, List.forall_mem_append, ih, List.forall_mem_map, List.pairwise_cons]

/-- What is nested to the left has the value folded from the left. -/
theorem value_foldl (as : List Term) (a : Term) (ρ : Assignment V) :
    I.value (as.foldl (fun acc b => Term.operation "/=" [acc, b]) a) ρ =
      (as.map fun t => I.value t ρ).foldl I.differ (I.value a ρ) := by
  induction as generalizing a with
  | nil => rfl
  | cons b bs ih =>
    rw [List.foldl_cons, ih, Term.operation, value_apply]
    rfl

/-- What is nested to the right has the value nested to the right. -/
theorem value_nestRight {s : Symbol} {f : V → V → V}
    (combines : ∀ a b, I.apply s.name [a, b] = f a b) (as : List Term) (a : Term)
    (pos : Option Pos) (ρ : Assignment V) :
    I.value (Term.nestRight (fun b c => .apply (.symbol s) [b, c] pos) a as) ρ =
      Term.nestRight f (I.value a ρ) (as.map fun t => I.value t ρ) := by
  induction as generalizing a with
  | nil => rfl
  | cons b bs ih =>
    rw [Term.nestRight, value_apply, List.map_cons, List.map_cons, List.map_nil, ih, combines]
    rfl

/-- **An operator arranged anew has the value of the operator**, when it has
arguments enough. -/
theorem value_arrange {s : Symbol} {args : List Term} (enough : EnoughFor s.name args.length)
    (pos : Option Pos) (ρ : Assignment V) :
    I.value (arrange s args pos) ρ = I.apply s.name (args.map fun t => I.value t ρ) := by
  obtain ⟨positive, two⟩ := enough
  obtain ⟨a, as, rfl⟩ := List.exists_cons_of_length_pos positive
  unfold arrange
  by_cases compares : s.name ∈ comparisons
  · have relates (v w : V) : I.apply s.name [v, w] = I.truth (I.related s.name v w) := by
      rw [apply_comparison compares, List.isChain_pair]
    rw [if_pos compares, value_pairs relates, ← Dialect.neighbours_map fun t => I.value t ρ,
      forall_neighbours, apply_comparison compares]
  · rw [if_neg compares]
    by_cases distinct : s.name = "distinct"
    · have relates (v w : V) : I.apply "/=" [v, w] = I.truth (v ≠ w) := rfl
      have pairwise := value_pairs (s := { name := "/=" }) relates (Dialect.pairs (a :: as)) none ρ
      rw [if_pos distinct, distinct]
      refine pairwise.trans ?_
      rw [← Dialect.pairs_map fun t => I.value t ρ, forall_pairs (· ≠ ·)]
      rfl
    · rw [if_neg distinct]
      by_cases exclusive : s.name = "xor"
      · simp only [if_pos exclusive]
        rw [value_foldl, exclusive]
        rfl
      · by_cases implies : s.name = "=>"
        · have combines (v w : V) : I.apply s.name [v, w] = I.function "=>" [v, w] := by
            rw [implies]
            rfl
          simp only [if_neg exclusive, if_pos implies]
          rw [value_nestRight combines, implies]
          rfl
        · simp only [if_neg exclusive, if_neg implies]
          by_cases negation : s.name = "-" ∧ as = []
          · obtain ⟨minus, rfl⟩ := negation
            rw [if_pos ⟨minus, rfl⟩, value_apply, minus]
            rfl
          · rw [if_neg negation, value_apply]

/-! ## Terms -/

mutual

/-- **Desugaring keeps the value of an admitted term**, under every assignment.
The induction is on the term, for all assignments at once, since binders change
them; `value_arrange` is the case of an application. -/
theorem value_desugar : (t : Term) → t.Admitted → (ρ : Assignment V) →
    I.value t.desugar ρ = I.value t ρ
  | .apply head args pos, admitted, ρ => by
    obtain ⟨⟨s, rfl, enough⟩, admitted⟩ := admitted
    have same_length : (Term.desugarAll args).length = args.length := by
      rw [Term.desugarAll_eq_map, List.length_map]
    rw [Term.desugar, value_arrange (same_length ▸ enough), ← values_eq_map,
      values_desugarAll args admitted ρ, value]
  | .quantified q decls body pos, admitted, ρ => by
    have bodies : I.value body.desugar = I.value body := funext (value_desugar body admitted)
    show I.quantify q decls ρ (I.value body.desugar) = I.quantify q decls ρ (I.value body)
    rw [bodies]
  | .letIn bindings body pos, ⟨bound, admitted⟩, ρ => by
    show I.value body.desugar (ρ.setAll (I.boundValues (Term.desugarBindings bindings) ρ)) = _
    rw [boundValues_desugarBindings bindings bound ρ]
    exact value_desugar body admitted _
  | .attributed term _ _, admitted, ρ => value_desugar term admitted ρ
  | .numeral _ _, _, _ => rfl
  | .decimal _ _, _, _ => rfl
  | .hex _ _, _, _ => rfl
  | .binary _ _, _, _ => rfl
  | .string _ _, _, _ => rfl
  | .symbol _, _, _ => rfl

theorem values_desugarAll : (ts : List Term) → Term.AdmittedAll ts → (ρ : Assignment V) →
    I.values (Term.desugarAll ts) ρ = I.values ts ρ
  | [], _, _ => rfl
  | t :: ts, ⟨here, later⟩, ρ => by
    show I.value t.desugar ρ :: I.values (Term.desugarAll ts) ρ = _
    rw [value_desugar t here ρ, values_desugarAll ts later ρ]
    rfl

theorem boundValues_desugarBindings : (bs : List Binding) → Term.AdmittedBindings bs →
    (ρ : Assignment V) → I.boundValues (Term.desugarBindings bs) ρ = I.boundValues bs ρ
  | [], _, _ => rfl
  | .mk s t :: bs, ⟨here, later⟩, ρ => by
    show (s.name, I.value t.desugar ρ) :: I.boundValues (Term.desugarBindings bs) ρ = _
    rw [value_desugar t here ρ, boundValues_desugarBindings bs later ρ]
    rfl

end

/-- The interpretation in propositions under which nothing but a conjunction is
ever true. -/
def propositional : Interpretation Prop where
  truth p := p
  numeral _ := False
  decimal _ := False
  hex _ := False
  binary _ := False
  string _ := False
  related _ _ _ := False
  domain _ _ := True
  function name ps := name = "and" ∧ ∀ p ∈ ps, p
  unspecified := False
  conjunction ps := by simp

end Interpretation

/-- **Spelling keeps the meaning of a term.** When one of the two dialects spells
a proper term, it writes the desugared term, which is the same for both; every
node of that is plain, so operators that only take two arguments have two, and
what the dialect does not have is gone; and the desugared term has the value of
the term under every interpretation and every assignment. -/
theorem spell_keeps_meaning {d : Dialect} (known : d ∈ [Dialect.smtLib, Dialect.yices]) {t : Term}
    (proper : t.Proper) {text : String} (rendered : d.render t = .ok text) :
    text = (d.write t.desugar).text ∧ (∀ u, Term.Within u t.desugar → Term.Plain t u) ∧
      ∀ (V : Type) (I : Interpretation V) (ρ : Assignment V),
        I.value t.desugar ρ = I.value t ρ := by
  have shares : d.SharesOperators := by
    rcases List.mem_cons.mp known with rfl | is
    · exact Dialect.smtLib_sharesOperators
    · rw [List.mem_singleton.mp is]
      exact Dialect.yices_sharesOperators
  obtain ⟨e, spelled, same⟩ := Dialect.bind_eq_ok.mp rendered
  obtain ⟨admitted, rfl⟩ := Dialect.spell_eq_write shares t proper spelled
  refine ⟨(Except.ok.inj same).symm, fun u => Term.desugared_plain admitted, fun V I ρ => ?_⟩
  exact Interpretation.value_desugar t admitted ρ

/-- A negation, a bound variable and a chain of three, under both dialects. -/
theorem spell_keeps_meaning_chain :
    let x : Term := .symbol { name := "x" }
    let t : Term := .letIn [.mk { name := "x" } (.apply (.symbol { name := "-" }) [x] none)]
      (.apply (.symbol { name := "<" }) [x, .numeral 1 none, x] none) none
    Dialect.yices.render t = .ok "(let ((x (- 0 x))) (and (< x 1) (< 1 x)))" ∧
      t.Proper ∧ (∀ u, Term.Within u t.desugar → Term.Plain t u) ∧
      Interpretation.propositional.value t.desugar (fun _ => True) =
        Interpretation.propositional.value t (fun _ => True) := by
  intro x t
  have rendered : Dialect.yices.render t = .ok "(let ((x (- 0 x))) (and (< x 1) (< 1 x)))" := by
    decide
  have proper : t.Proper := by
    simp [t, x, Term.Proper, Term.ProperAll, Term.ProperBindings, Term.IsIdentifier]
  obtain ⟨-, plain, value⟩ := spell_keeps_meaning (by simp) proper rendered
  exact ⟨rendered, proper, plain, value _ _ _⟩

end SmtSession
