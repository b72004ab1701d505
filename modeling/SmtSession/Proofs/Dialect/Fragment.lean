import SmtSession.Proofs.Dialect.Rendering
import SmtSession.Proofs.Reader.Nodes

/-!
# What a dialect can write, and what it blames

**A dialect writes a term or a sort exactly when it refuses none of its nodes**, and if it
refuses some, the one that it blames is the first of them in the order of the source: a node
in front of its parts, a head in front of the arguments, and what a binder binds in front of
its body. `render_judges` says so of both dialects.

`nodes` lists the nodes in that order. Annotations are left out, for nobody looks at them.
`offence?` says of a single node why it is refused, and looks no further into it than to the
name of its head and to how many parts it has. That all other refusals come from these is the
content of `spell_decided`, an induction over terms.
-/

namespace SmtSession

/-! ## Nodes in the order of the source -/

mutual

/-- The nodes of a sort, each in front of its parts. -/
def SmtSort.nodes : SmtSort → List Node
  | .bool pos => [.sort (.bool pos)]
  | .family name args indices pos => .sort (.family name args indices pos) :: SmtSort.allNodes args
  | .abbreviation name parameters definition pos =>
    .sort (.abbreviation name parameters definition pos) :: SmtSort.nodes definition
  | .function args result pos =>
    .sort (.function args result pos) :: (SmtSort.allNodes args ++ SmtSort.nodes result)
  | .parameter name pos => [.sort (.parameter name pos)]

/-- The nodes of several sorts, one behind the other. -/
def SmtSort.allNodes : List SmtSort → List Node
  | [] => []
  | s :: ss => SmtSort.nodes s ++ SmtSort.allNodes ss

end

/-- The nodes of a variable with its sort. -/
def Declaration.nodes (decl : Declaration) : List Node :=
  .label (.symbol decl.parameter) :: decl.sort.nodes

mutual

/-- The nodes of a term, each in front of its parts, without those of annotations. -/
def Term.nodes : Term → List Node
  | .qualified s σ pos => .term (.qualified s σ pos) :: .label (.symbol s) :: σ.nodes
  | .indexed s indices pos => [.term (.indexed s indices pos), .label (.symbol s)]
  | .apply head args pos =>
    .term (.apply head args pos) :: (Term.nodes head ++ Term.allNodes args)
  | .quantified q parameters body pos =>
    .term (.quantified q parameters body pos) ::
      (parameters.flatMap Declaration.nodes ++ Term.nodes body)
  | .letIn bindings body pos =>
    .term (.letIn bindings body pos) :: (Term.bindingNodes bindings ++ Term.nodes body)
  | .attributed term attributes pos => .term (.attributed term attributes pos) :: Term.nodes term
  | t => [.term t]

/-- The nodes of several terms, one behind the other. -/
def Term.allNodes : List Term → List Node
  | [] => []
  | t :: ts => Term.nodes t ++ Term.allNodes ts

/-- The nodes of bindings: each variable in front of its term. -/
def Term.bindingNodes : List Binding → List Node
  | [] => []
  | .mk s t :: bs => .label (.symbol s) :: (Term.nodes t ++ Term.bindingNodes bs)

end

namespace Dialect

open Term (comparisons)

/-! ## Single nodes -/

/-- Why an operator is not applied to so many arguments: there is none, or only one where two
are related. -/
def shortage? (operator : String) : Nat → Option Cause
  | 0 => some .noArguments
  | 1 =>
    if operator ∈ comparisons then some (.shortChain operator)
    else if operator = "distinct" then some (.shortDistinct operator)
    else none
  | _ + 2 => none

variable (d : Dialect)

/-- Why a literal that is no numeral is refused. -/
def literalOffence? (cause : Cause) : Option Cause :=
  if d.literals then none else some cause

/-- Why the dialect refuses a node, whatever its parts are. -/
def offence? : Node → Option Cause
  | .term (.decimal _ _) => d.literalOffence? (.unsupported d.name .decimals)
  | .term (.hex _ _) => d.literalOffence? .hexLiteral
  | .term (.binary _ _) => d.literalOffence? .binaryLiteral
  | .term (.string _ _) => d.literalOffence? (.unsupported d.name .strings)
  | .term (.keyword _) => some .keyword
  | .term (.qualified _ _ _) => some (.unsupported d.name .qualifiedIdentifiers)
  | .term (.indexed _ _ _) => some (.unsupported d.name .indexedIdentifiers)
  | .term (.apply (.symbol s) args _) => shortage? s.name args.length
  | .term (.apply _ [] _) => some .noArguments
  | .term (.error message _) => some (.errorTerm message)
  | .sort (.family name args indices _) =>
    if args.isEmpty && indices.isEmpty then none
    else some (.unsupported d.name (.parameterizedSort name))
  | .sort (.abbreviation name _ _ _) => some (.unsupported d.name (.sortAbbreviation name))
  | .sort (.function _ _ _) =>
    if d.functionSorts then none else some (.unsupported d.name .functionSorts)
  | .sort (.parameter name _) => some (.unsupported d.name (.sortParameter name))
  | _ => none

/-- The error that blames the node, if it is refused. -/
def refusal? (n : Node) : Option Error :=
  (d.offence? n).map fun cause => .refused cause n.pos

/-- **The nodes decide the result**: it is the first refusal of one of them, and a value if
there is none. -/
def Decided (r : Except Error α) (ns : List Node) : Prop :=
  match ns.findSome? d.refusal? with
  | none => ∃ a, r = .ok a
  | some e => r = .error e

variable {d}

namespace Decided

variable {r : Except Error α} {f : α → Except Error β} {ns ms : List Node} {n : Node}

theorem ok (a : α) : d.Decided (.ok a) [] :=
  ⟨a, rfl⟩

/-- A node that is not refused decides nothing. -/
theorem behind (fine : d.offence? n = none) (decided : d.Decided r ns) : d.Decided r (n :: ns) := by
  unfold Decided
  rw [List.findSome?_cons, refusal?, fine]
  exact decided

/-- A node that is refused decides all. -/
theorem refused {cause : Cause} {pos : Option Pos} (offends : d.offence? n = some cause)
    (at_node : n.pos = pos) : d.Decided (.error (.refused cause pos) : Except Error α) (n :: ns) := by
  unfold Decided
  rw [List.findSome?_cons, refusal?, offends, at_node]
  rfl

/-- What comes first is decided first. -/
theorem bind (first : d.Decided r ns) (next : ∀ a, r = .ok a → d.Decided (f a) ms) :
    d.Decided (r >>= f) (ns ++ ms) := by
  unfold Decided at first ⊢
  rw [List.findSome?_append]
  cases found : ns.findSome? d.refusal? with
  | none =>
    rw [found] at first
    obtain ⟨a, rfl⟩ := first
    exact next a rfl
  | some e =>
    rw [found] at first
    rw [first]
    rfl

/-- What is made of a value is decided with it. -/
theorem map {g : α → β} (decided : d.Decided r ns) :
    d.Decided (r >>= fun a => pure (g a)) ns := by
  have both : d.Decided (r >>= fun a => pure (g a)) (ns ++ []) := decided.bind fun a _ => ok (g a)
  rwa [List.append_nil] at both

end Decided

/-! ## Sorts and variables -/

mutual

theorem spellSort_decided : (s : SmtSort) → d.Decided (d.spellSort s) s.nodes
  | .bool _ => .behind rfl (.ok _)
  | .family name args indices _ => by
    rw [spellSort, SmtSort.nodes]
    split
    · next alone =>
      obtain ⟨none, -⟩ := Bool.and_eq_true_iff.mp alone
      have no_parts : SmtSort.allNodes args = [] := by rw [List.isEmpty_iff.mp none]; rfl
      rw [no_parts]
      exact .behind (if_pos alone) (.ok _)
    · next several => exact .refused (if_neg several) rfl
  | .abbreviation _ _ _ _ => .refused rfl rfl
  | .function args result _ => by
    rw [spellSort, SmtSort.nodes]
    split
    · next has =>
      refine .behind (if_pos has) ?_
      exact (spellSorts_decided args).bind fun _ _ => (spellSort_decided result).map
    · next lacks => exact .refused (if_neg lacks) rfl
  | .parameter _ _ => .refused rfl rfl

theorem spellSorts_decided : (ss : List SmtSort) → d.Decided (d.spellSorts ss) (SmtSort.allNodes ss)
  | [] => .ok _
  | s :: ss => (spellSort_decided s).bind fun _ _ => (spellSorts_decided ss).map

end

theorem spellDeclarations_decided (decls : List Declaration) :
    d.Decided (d.spellDeclarations decls) (decls.flatMap Declaration.nodes) := by
  induction decls with
  | nil => exact .ok _
  | cons decl decls ih =>
    have first : d.Decided (d.spellDeclaration decl) decl.nodes :=
      .behind rfl (spellSort_decided decl.sort).map
    exact first.bind fun _ _ => ih.map

/-! ## Terms -/

theorem literal_decided {t : Term} {cause : Cause} (nodes : t.nodes = [.term t])
    (offence : d.offence? (.term t) = d.literalOffence? cause) (text : String) :
    d.Decided (d.literal text cause t.pos) t.nodes := by
  rw [nodes]
  unfold literal literalOffence? at *
  split
  · next has => exact .behind (offence.trans (if_pos has)) (.ok _)
  · next lacks => exact .refused (offence.trans (if_neg lacks)) rfl

/-- An operator is refused for the number of its arguments when there are too few. -/
theorem tooFew?_eq_shortage? (shares : d.SharesOperators) (operator : String) {count : Nat}
    (some : 0 < count) : d.tooFew? operator count = shortage? operator count := by
  unfold tooFew?
  simp only [shares.kept, shares.chainable, shares.leftAssociative, shares.rightAssociative,
    shares.distinct]
  match count, some with
  | 1, _ =>
    by_cases compares : operator ∈ comparisons
    · rw [if_neg (not_kept_of_comparison compares), if_pos compares, if_pos (by decide)]
      exact (if_pos compares).symm
    by_cases distinct : operator = "distinct"
    · subst distinct
      decide
    · have other : ¬ operator = smtLib.distinct := distinct
      simp only [if_neg compares, if_neg other, ite_self]
      exact ((if_neg compares).trans (if_neg distinct)).symm
  | count + 2, _ =>
    have enough : ¬ count + 2 < 2 := by omega
    simp only [if_neg enough, ite_self]
    rfl

/-- A head is decided by its own nodes. -/
theorem spell_head_decided {head : Term} (identifier : head.IsIdentifier) :
    d.Decided (d.spell head) head.nodes := by
  cases head with
  | symbol => exact .behind rfl (.ok _)
  | qualified => exact .refused rfl rfl
  | indexed => exact .refused rfl rfl
  | _ => cases identifier

/-- An application whose head is no symbol is refused for its head, if it has arguments. -/
theorem offence?_apply_of_other {head : Term} {args : List Term} {pos : Option Pos}
    (some : args ≠ []) (other : ∀ s, head ≠ .symbol s) :
    d.offence? (.term (.apply head args pos)) = none := by
  cases args with
  | nil => exact absurd rfl some
  | cons a as =>
    cases head with
    | symbol s => exact absurd rfl (other s)
    | _ => rfl

/-- An application is decided by itself, by its head, and then by its arguments. -/
theorem apply_decided (shares : d.SharesOperators) {head : Term} {args : List Term}
    {pos : Option Pos} (identifier : head.IsIdentifier)
    (decided : d.Decided (d.spellAll args) (Term.allNodes args)) :
    d.Decided (d.spell (.apply head args pos)) (Term.nodes (.apply head args pos)) := by
  rw [spell, Term.nodes]
  split
  · next none =>
    obtain rfl := List.isEmpty_iff.mp none
    refine .refused ?_ rfl
    cases head <;> rfl
  next some =>
  have some : args ≠ [] := by simpa using some
  by_cases is_symbol : ∃ s, head = .symbol s
  · obtain ⟨s, rfl⟩ := is_symbol
    have head : d.spell (.symbol s) = pure (.atom s.name) := rfl
    have short := tooFew?_eq_shortage? shares s.name (List.length_pos_iff.mpr some)
    rw [head, pure_bind, SExpr.text, short]
    cases offends : shortage? s.name args.length with
    | some cause => exact .refused offends rfl
    | none => exact .behind offends (.behind rfl decided.map)
  · have other : ∀ s, head ≠ .symbol s := fun s is => is_symbol ⟨s, is⟩
    refine .behind (offence?_apply_of_other some other) ((spell_head_decided identifier).bind ?_)
    intro e spelled
    cases head with
    | symbol s => exact absurd rfl (other s)
    | qualified | indexed => cases spelled
    | _ => cases identifier

mutual

/-- **The nodes of a term decide how it is spelled.** -/
theorem spell_decided (shares : d.SharesOperators) :
    (t : Term) → t.Proper → d.Decided (d.spell t) t.nodes
  | .numeral _ _, _ => .behind rfl (.ok _)
  | .symbol _, _ => .behind rfl (.ok _)
  | .decimal text _, _ => literal_decided rfl rfl text
  | .hex digits _, _ => literal_decided rfl rfl ("#x" ++ digits)
  | .binary digits _, _ => literal_decided rfl rfl ("#b" ++ digits)
  | .string content _, _ => literal_decided rfl rfl (Text.Quoted.encode content)
  | .keyword _, _ => .refused rfl rfl
  | .qualified _ _ _, _ => .refused rfl rfl
  | .indexed _ _ _, _ => .refused rfl rfl
  | .error _ _, _ => .refused rfl rfl
  | .apply _ args _, ⟨identifier, proper⟩ =>
    apply_decided shares identifier (spellAll_decided shares args proper)
  | .quantified _ parameters body _, proper =>
    .behind rfl ((spellDeclarations_decided parameters).bind fun _ _ =>
      (spell_decided shares body proper).map)
  | .letIn bindings body _, ⟨bound, proper⟩ =>
    .behind rfl ((spellBindings_decided shares bindings bound).bind fun _ _ =>
      (spell_decided shares body proper).map)
  | .attributed term _ _, proper => .behind rfl (spell_decided shares term proper)
  | .sort _, proper | .declaration _, proper | .binding _, proper | .attr _, proper =>
    absurd proper id

theorem spellAll_decided (shares : d.SharesOperators) :
    (ts : List Term) → Term.ProperAll ts → d.Decided (d.spellAll ts) (Term.allNodes ts)
  | [], _ => .ok _
  | t :: ts, ⟨first, more⟩ =>
    (spell_decided shares t first).bind fun _ _ => (spellAll_decided shares ts more).map

theorem spellBindings_decided (shares : d.SharesOperators) :
    (bs : List Binding) → Term.ProperBindings bs →
      d.Decided (d.spellBindings bs) (Term.bindingNodes bs)
  | [], _ => .ok _
  | .mk _ t :: bs, ⟨first, more⟩ =>
    .behind rfl ((spell_decided shares t first).bind fun _ _ =>
      (spellBindings_decided shares bs more).map)

end

/-! ## Both dialects -/

/-- **The result is the judgement on the nodes**: a text is given exactly when none of them is
refused, and an error is the refusal of the first one that is, for its cause and at its range. -/
structure Judges (d : Dialect) (ns : List Node) (result : Except Error String) : Prop where
  written : (∃ text, result = .ok text) ↔ ∀ n ∈ ns, d.offence? n = none
  blamed : ∀ e, result = .error e → ∃ before n after cause, ns = before ++ n :: after ∧
    (∀ m ∈ before, d.offence? m = none) ∧ d.offence? n = some cause ∧ e = .refused cause n.pos

theorem refusal?_eq_none {n : Node} : d.refusal? n = none ↔ d.offence? n = none :=
  Option.map_eq_none_iff

theorem Decided.judges {result : Except Error String} {ns : List Node}
    (decided : d.Decided result ns) : d.Judges ns result := by
  unfold Decided at decided
  cases found : ns.findSome? d.refusal? with
  | none =>
    rw [found] at decided
    obtain ⟨text, rfl⟩ := decided
    have fine := List.findSome?_eq_none_iff.mp found
    exact ⟨⟨fun _ n is => refusal?_eq_none.mp (fine n is), fun _ => ⟨text, rfl⟩⟩, nofun⟩
  | some e =>
    rw [found] at decided
    subst decided
    obtain ⟨before, n, after, split, refuses, fine⟩ := List.findSome?_eq_some_iff.mp found
    obtain ⟨cause, offends, blames⟩ := Option.map_eq_some_iff.mp refuses
    refine ⟨⟨nofun, fun all => ?_⟩, fun e' same => ?_⟩
    · have none := all n (split ▸ List.mem_append_right before List.mem_cons_self)
      rw [none] at offends
      cases offends
    · cases same
      exact ⟨before, n, after, cause, split, fun m is => refusal?_eq_none.mp (fine m is), offends,
        blames.symm⟩

/-- **A dialect writes exactly its fragment, and blames the first node outside of it.** This
holds of the input language and of Yices, of every term and of every sort. -/
theorem render_judges {d : Dialect} (known : d ∈ [smtLib, yices]) :
    (∀ t : Term, t.Proper → d.Judges t.nodes (d.render t)) ∧
      ∀ s : SmtSort, d.Judges s.nodes (d.renderSort s) := by
  have shares : d.SharesOperators := sharesOperators_of_known known
  refine ⟨fun t proper => ?_, fun s => ?_⟩
  · exact (spell_decided shares t proper).map.judges
  · exact (spellSort_decided s).map.judges

/-- A let-term with three nodes that Yices does not have. The first of them is the comparison of
one argument, not the literal in it. -/
theorem render_judges_short_chain :
    let compared : Pos := ⟨9, 16, none⟩
    let bound := Term.apply (.symbol { name := "=" }) [.decimal "1.5" none] (some compared)
    let body := Term.apply (.symbol { name := "f" }) [.indexed { name := "bv5" } [.number 8] none]
      none
    let t := Term.letIn [.mk { name := "x" } bound] body none
    (yices ∈ [smtLib, yices] ∧ t.Proper) ∧
      yices.render t = .error (.refused (.shortChain "=") (some compared)) ∧
      yices.Judges t.nodes (yices.render t) := by
  intro compared bound body t
  have known : yices ∈ [smtLib, yices] := List.mem_cons_of_mem _ List.mem_cons_self
  have proper : t.Proper := ⟨⟨⟨trivial, trivial, trivial⟩, trivial⟩, trivial, trivial, trivial⟩
  exact ⟨⟨known, proper⟩, rfl, (render_judges known).1 t proper⟩

end Dialect

end SmtSession
