import SmtSession.Dialect
import SmtSession.Term

/-!
# What a dialect writes instead of a term

**The desugared term** has only operators that every dialect can write as they
stand: a comparison or an implication has two arguments, neither `xor` nor
`distinct` occurs, nothing is negated by a minus, and annotations are gone. It
is a term again, and does not depend on a dialect; `desugared_plain` says what
its nodes are like.

Two sets of terms are named here. `Term.Proper` is what the type of terms is
meant to hold: the head of an application is an identifier, and no node of
another kind stands in the place of a term. `Term.Admitted` is what some dialect
can write; a dialect may still lack a literal or a sort.
-/

namespace SmtSession

namespace Term

/-! ## Terms that are meant, and terms that can be written -/

/-- A symbol, alone, with its sort or with indices. -/
def IsIdentifier : Term → Prop
  | .symbol _ => True
  | .qualified _ _ _ => True
  | .indexed _ _ _ => True
  | _ => False

mutual

/-- Heads are identifiers, and no node of another kind stands for a term. What
annotations hold does not matter. -/
def Proper : Term → Prop
  | .apply head args _ => IsIdentifier head ∧ ProperAll args
  | .quantified _ _ body _ => Proper body
  | .letIn bindings body _ => ProperBindings bindings ∧ Proper body
  | .attributed term _ _ => Proper term
  | .sort _ => False
  | .declaration _ => False
  | .binding _ => False
  | .attr _ => False
  | _ => True

/-- All of the terms are proper. -/
def ProperAll : List Term → Prop
  | [] => True
  | t :: ts => Proper t ∧ ProperAll ts

/-- All of the bound terms are proper. -/
def ProperBindings : List Binding → Prop
  | [] => True
  | .mk _ t :: bs => Proper t ∧ ProperBindings bs

end

/-- The operators that relate each argument to the next. -/
def comparisons : List String := ["=", "<", ">", "<=", ">="]

/-- An operator can be applied to so many arguments. -/
def EnoughFor (operator : String) (count : Nat) : Prop :=
  0 < count ∧ (operator ∈ comparisons ∨ operator = "distinct" → 2 ≤ count)

mutual

/-- Heads are symbols that have arguments enough, and nothing stands there that
no dialect can write. -/
def Admitted : Term → Prop
  | .numeral _ _ => True
  | .decimal _ _ => True
  | .hex _ _ => True
  | .binary _ _ => True
  | .string _ _ => True
  | .symbol _ => True
  | .apply head args _ => (∃ s, head = .symbol s ∧ EnoughFor s.name args.length) ∧ AdmittedAll args
  | .quantified _ _ body _ => Admitted body
  | .letIn bindings body _ => AdmittedBindings bindings ∧ Admitted body
  | .attributed term _ _ => Admitted term
  | _ => False

/-- All of the terms are admitted. -/
def AdmittedAll : List Term → Prop
  | [] => True
  | t :: ts => Admitted t ∧ AdmittedAll ts

/-- All of the bound terms are admitted. -/
def AdmittedBindings : List Binding → Prop
  | [] => True
  | .mk _ t :: bs => Admitted t ∧ AdmittedBindings bs

end

/-! ## Desugaring -/

/-- An operator of its own, applied to arguments. -/
def operation (operator : String) (args : List Term) : Term :=
  .apply (.symbol { name := operator }) args none

/-- The conjunction of terms; one alone needs no operator. -/
def conjunction : List Term → Term
  | [t] => t
  | ts => operation "and" ts

/-- A binary operation nested to the right. -/
def nestRight (f : α → α → α) : α → List α → α
  | a, [] => a
  | a, b :: bs => f a (nestRight f b bs)

/-- An operator applied to arguments that are desugared already. -/
def arrange (s : Symbol) (args : List Term) (pos : Option Pos) : Term :=
  if s.name ∈ comparisons then
    conjunction ((Dialect.neighbours args).map fun (a, b) => .apply (.symbol s) [a, b] pos)
  else if s.name = "distinct" then
    conjunction ((Dialect.pairs args).map fun (a, b) => operation "/=" [a, b])
  else match args with
  | [] => .apply (.symbol s) [] pos
  | a :: as =>
    if s.name = "xor" then
      as.foldl (fun acc b => operation "/=" [acc, b]) a
    else if s.name = "=>" then
      nestRight (fun b c => .apply (.symbol s) [b, c] pos) a as
    else if s.name = "-" ∧ as = [] then
      .apply (.symbol s) [.numeral 0 none, a] pos
    else
      .apply (.symbol s) (a :: as) pos

mutual

/-- The term without the operators that a dialect does not have. -/
def desugar : Term → Term
  | .apply (.symbol s) args pos => arrange s (desugarAll args) pos
  | .quantified q parameters body pos => .quantified q parameters (desugar body) pos
  | .letIn bindings body pos => .letIn (desugarBindings bindings) (desugar body) pos
  | .attributed term _ _ => desugar term
  | t => t

/-- The same for several terms. -/
def desugarAll : List Term → List Term
  | [] => []
  | t :: ts => desugar t :: desugarAll ts

/-- The same for bound terms, under the names they are bound to. -/
def desugarBindings : List Binding → List Binding
  | [] => []
  | .mk s t :: bs => .mk s (desugar t) :: desugarBindings bs

end

theorem desugarAll_eq_map (ts : List Term) : desugarAll ts = ts.map desugar := by
  induction ts with
  | nil => rfl
  | cons t ts ih => rw [desugarAll, ih]; rfl

/-! ## The nodes of a term -/

/-- A term stands somewhere in another one, or is that one. Heads and
annotations are not looked into. -/
inductive Within (u : Term) : Term → Prop
  | here : Within u u
  | argument {head a : Term} {args : List Term} {pos : Option Pos} (is : a ∈ args)
      (inside : Within u a) : Within u (.apply head args pos)
  | quantified {q : Quantifier} {parameters : List Declaration} {body : Term} {pos : Option Pos}
      (inside : Within u body) : Within u (.quantified q parameters body pos)
  | bound {s : Symbol} {t body : Term} {bindings : List Binding} {pos : Option Pos}
      (is : .mk s t ∈ bindings) (inside : Within u t) : Within u (.letIn bindings body pos)
  | letBody {bindings : List Binding} {body : Term} {pos : Option Pos} (inside : Within u body) :
      Within u (.letIn bindings body pos)
  | annotated {t : Term} {attributes : List Attribute} {pos : Option Pos} (inside : Within u t) :
      Within u (.attributed t attributes pos)

theorem Within.trans {t u v : Term} (first : Within u v) (next : Within v t) : Within u t := by
  induction next with
  | here => exact first
  | argument is _ ih => exact .argument is ih
  | quantified _ ih => exact .quantified ih
  | bound is _ ih => exact .bound is ih
  | letBody _ ih => exact .letBody ih
  | annotated _ ih => exact .annotated ih

/-- The operators that have two arguments in a desugared term. -/
def binaryOperators : List String := "=>" :: comparisons

/-- **A plain node**, in what became of a term: operators have as many arguments
as they are meant to, and a binder is one of the term with the same variables in
the same order. A disequality has two arguments unless the term itself applies
it to another number of them. -/
def Plain (t : Term) : Term → Prop
  | .apply head args pos => ∃ s, head = .symbol s ∧
      (s.name ∈ binaryOperators → args.length = 2) ∧
      s.name ≠ "xor" ∧ s.name ≠ "distinct" ∧
      (s.name = "-" → args.length ≠ 1) ∧
      (s.name = "/=" → args.length = 2 ∨
        ∃ source, Within (.apply head source pos) t ∧ args = desugarAll source)
  | .quantified q parameters body pos =>
      ∃ source, Within (.quantified q parameters source pos) t ∧ body = desugar source
  | .letIn bindings body pos =>
      ∃ sources source, Within (.letIn sources source pos) t ∧
        bindings = desugarBindings sources ∧ body = desugar source
  | .attributed _ _ _ => False
  | _ => True

/-! ## The nodes of a desugared term -/

/-- An application to two arguments is plain for all but the operators that are
gone. -/
theorem plain_of_two {t a b : Term} {s : Symbol} {pos : Option Pos} (exclusive : s.name ≠ "xor")
    (distinct : s.name ≠ "distinct") : Plain t (.apply (.symbol s) [a, b] pos) :=
  ⟨s, rfl, fun _ => rfl, exclusive, distinct, fun _ => nofun, fun _ => .inl rfl⟩

/-- What stands in a conjunction: itself, if it is written at all, or what stands
in a conjunct. -/
theorem within_conjunction {t u : Term} {ts : List Term} (inside : Within u (conjunction ts)) :
    Plain t u ∨ ∃ a ∈ ts, Within u a := by
  unfold conjunction at inside
  split at inside
  · exact .inr ⟨_, List.mem_singleton_self _, inside⟩
  · cases inside with
    | here =>
      refine .inl ⟨{ name := "and" }, rfl, fun is => ?_, by decide, by decide, ?_, ?_⟩
      · exact absurd is (by decide)
      · exact fun same => absurd same (by decide)
      · exact fun same => absurd same (by decide)
    | argument is inside => exact .inr ⟨_, is, inside⟩

theorem mem_of_mem_neighbours {as : List α} {a b : α} (is : (a, b) ∈ Dialect.neighbours as) :
    a ∈ as ∧ b ∈ as := by
  induction as with
  | nil => cases is
  | cons c cs ih =>
    cases cs with
    | nil => cases is
    | cons d ds =>
      rcases List.mem_cons.mp is with same | later
      · cases same
        simp
      · obtain ⟨first, second⟩ := ih later
        exact ⟨List.mem_cons_of_mem _ first, List.mem_cons_of_mem _ second⟩

theorem mem_of_mem_pairs {as : List α} {a b : α} (is : (a, b) ∈ Dialect.pairs as) :
    a ∈ as ∧ b ∈ as := by
  induction as with
  | nil => cases is
  | cons c cs ih =>
    rcases List.mem_append.mp is with here | later
    · obtain ⟨d, there, same⟩ := List.mem_map.mp here
      cases same
      exact ⟨List.mem_cons_self, List.mem_cons_of_mem _ there⟩
    · obtain ⟨first, second⟩ := ih later
      exact ⟨List.mem_cons_of_mem _ first, List.mem_cons_of_mem _ second⟩

/-- What stands in an application to two arguments. -/
theorem within_two {u head a b : Term} {pos : Option Pos}
    (inside : Within u (.apply head [a, b] pos)) :
    u = .apply head [a, b] pos ∨ Within u a ∨ Within u b := by
  cases inside with
  | here => exact .inl rfl
  | argument is inside =>
    rcases List.mem_cons.mp is with rfl | is
    · exact .inr (.inl inside)
    · rw [List.mem_singleton] at is
      subst is
      exact .inr (.inr inside)

/-- What stands in a conjunction over pairs is plain, or stands in a member of a
pair. -/
theorem within_pairs {t u : Term} {args : List Term} {ps : List (Term × Term)}
    {s : Symbol} {pos : Option Pos} (exclusive : s.name ≠ "xor") (distinct : s.name ≠ "distinct")
    (members : ∀ a b, (a, b) ∈ ps → a ∈ args ∧ b ∈ args)
    (inside : Within u (conjunction (ps.map fun (a, b) => .apply (.symbol s) [a, b] pos))) :
    Plain t u ∨ ∃ a ∈ args, Within u a := by
  rcases within_conjunction inside with plain | ⟨c, is, inside⟩
  · exact .inl plain
  · obtain ⟨⟨a, b⟩, pair, rfl⟩ := List.mem_map.mp is
    obtain ⟨first, second⟩ := members a b pair
    rcases within_two inside with rfl | inside | inside
    · exact .inl (plain_of_two exclusive distinct)
    · exact .inr ⟨a, first, inside⟩
    · exact .inr ⟨b, second, inside⟩

/-- What stands in an operation nested to the left is plain, or stands in an
argument. -/
theorem within_foldl {t u : Term} (as : List Term) (a : Term)
    (inside : Within u (as.foldl (fun acc b => operation "/=" [acc, b]) a)) :
    Plain t u ∨ ∃ b ∈ a :: as, Within u b := by
  induction as generalizing a with
  | nil => exact .inr ⟨a, List.mem_singleton_self a, inside⟩
  | cons c cs ih =>
    rcases ih _ inside with plain | ⟨b, is, inside⟩
    · exact .inl plain
    · rcases List.mem_cons.mp is with rfl | is
      · rcases within_two inside with rfl | inside | inside
        · exact .inl (plain_of_two (by decide) (by decide))
        · exact .inr ⟨a, List.mem_cons_self, inside⟩
        · exact .inr ⟨c, by simp, inside⟩
      · exact .inr ⟨b, by simp [is], inside⟩

/-- What stands in an operation nested to the right is plain, or stands in an
argument. -/
theorem within_nestRight {t u : Term} {s : Symbol} {pos : Option Pos} (exclusive : s.name ≠ "xor")
    (distinct : s.name ≠ "distinct") (as : List Term) (a : Term)
    (inside : Within u (nestRight (fun b c => .apply (.symbol s) [b, c] pos) a as)) :
    Plain t u ∨ ∃ b ∈ a :: as, Within u b := by
  induction as generalizing a with
  | nil => exact .inr ⟨a, List.mem_singleton_self a, inside⟩
  | cons c cs ih =>
    rcases within_two inside with rfl | inside | inside
    · exact .inl (plain_of_two exclusive distinct)
    · exact .inr ⟨a, List.mem_cons_self, inside⟩
    · rcases ih _ inside with plain | ⟨b, is, inside⟩
      · exact .inl plain
      · exact .inr ⟨b, List.mem_cons_of_mem _ is, inside⟩

/-- What stands in an application arranged anew is plain, or stands in an
argument. -/
theorem within_arrange {t u : Term} {s : Symbol} {source : List Term} {pos : Option Pos}
    (origin : Within (.apply (.symbol s) source pos) t) (enough : EnoughFor s.name source.length)
    (inside : Within u (arrange s (desugarAll source) pos)) :
    Plain t u ∨ ∃ a ∈ desugarAll source, Within u a := by
  unfold arrange at inside
  split at inside
  · next compares =>
    refine within_pairs (fun same => ?_) (fun same => ?_) (fun a b => mem_of_mem_neighbours) inside
    · exact absurd compares (by rw [same]; decide)
    · exact absurd compares (by rw [same]; decide)
  · next compares =>
    split at inside
    · exact within_pairs (s := { name := "/=" }) (by decide) (by decide)
        (fun a b => mem_of_mem_pairs) inside
    · next distinct =>
      split at inside
      · next none =>
        obtain ⟨positive, -⟩ := enough
        rw [desugarAll_eq_map, List.map_eq_nil_iff] at none
        rw [none] at positive
        cases positive
      · next a as all =>
        rw [all]
        split at inside
        · exact within_foldl as a inside
        · next exclusive =>
          split at inside
          · exact within_nestRight exclusive distinct as a inside
          · next implies =>
            split at inside
            · rcases within_two inside with rfl | inside | inside
              · exact .inl (plain_of_two exclusive distinct)
              · cases inside
                exact .inl trivial
              · exact .inr ⟨a, List.mem_cons_self, inside⟩
            · next negation =>
              cases inside with
              | argument is inside => exact .inr ⟨_, is, inside⟩
              | here =>
                refine .inl ⟨s, rfl, fun is => ?_, exclusive, distinct, fun is alone => ?_, ?_⟩
                · rcases List.mem_cons.mp is with is | is
                  · exact absurd is implies
                  · exact absurd is compares
                · exact negation ⟨is, List.length_eq_zero_iff.mp (by simpa using alone)⟩
                · exact fun _ => .inr ⟨source, origin, all.symm⟩

mutual

/-- The nodes of what became of a term are plain, in any term that it stands in.
The induction is on the term; only the nodes of `arrange` are new, and what
stands in its arguments is what became of the arguments. -/
theorem plain_of_within {whole u : Term} : (t : Term) → t.Admitted → Within t whole →
    Within u t.desugar → Plain whole u
  | .apply head args pos, admitted, origin, inside => by
    obtain ⟨⟨s, rfl, enough⟩, admitted⟩ := admitted
    rcases within_arrange origin enough inside with plain | ⟨a, is, inside⟩
    · exact plain
    · exact plain_of_withinAll args admitted
        (fun _ is => (Within.argument is .here).trans origin) is inside
  | .quantified q parameters body pos, admitted, origin, inside => by
    cases inside with
    | here => exact ⟨body, origin, rfl⟩
    | quantified inside =>
      exact plain_of_within body admitted ((Within.quantified .here).trans origin) inside
  | .letIn bindings body pos, ⟨bound, admitted⟩, origin, inside => by
    cases inside with
    | here => exact ⟨bindings, body, origin, rfl, rfl⟩
    | letBody inside =>
      exact plain_of_within body admitted ((Within.letBody .here).trans origin) inside
    | bound is inside =>
      exact plain_of_withinBindings bindings bound
        (fun _ _ is => (Within.bound is .here).trans origin) is inside
  | .attributed term attributes pos, admitted, origin, inside =>
    plain_of_within term admitted ((Within.annotated .here).trans origin) inside
  | .numeral _ _, _, _, inside => by cases inside; trivial
  | .decimal _ _, _, _, inside => by cases inside; trivial
  | .hex _ _, _, _, inside => by cases inside; trivial
  | .binary _ _, _, _, inside => by cases inside; trivial
  | .string _ _, _, _, inside => by cases inside; trivial
  | .symbol _, _, _, inside => by cases inside; trivial

theorem plain_of_withinAll {whole u d : Term} : (ts : List Term) → AdmittedAll ts →
    (∀ t ∈ ts, Within t whole) → d ∈ desugarAll ts → Within u d → Plain whole u
  | t :: ts, ⟨here, later⟩, origin, is, inside => by
    rcases List.mem_cons.mp is with rfl | is
    · exact plain_of_within t here (origin t List.mem_cons_self) inside
    · exact plain_of_withinAll ts later (fun t is => origin t (List.mem_cons_of_mem _ is)) is inside

theorem plain_of_withinBindings {whole u d : Term} {s : Symbol} : (bs : List Binding) →
    AdmittedBindings bs → (∀ s t, .mk s t ∈ bs → Within t whole) → .mk s d ∈ desugarBindings bs →
    Within u d → Plain whole u
  | .mk r t :: bs, ⟨here, later⟩, origin, is, inside => by
    rcases List.mem_cons.mp is with same | is
    · cases same
      exact plain_of_within t here (origin _ t List.mem_cons_self) inside
    · exact plain_of_withinBindings bs later
        (fun s t is => origin s t (List.mem_cons_of_mem _ is)) is inside

end

/-- **Every node of a desugared term is plain.** -/
theorem desugared_plain {t u : Term} (admitted : t.Admitted) (inside : Within u t.desugar) :
    Plain t u :=
  plain_of_within t admitted .here inside

end Term

end SmtSession
