import SmtSession.Proofs.Reader.Names

/-!
# Sort parameters

**The parameters of a sort definition are a substitution.** A sort is read where some names are
parameters as it is read where none are, with a parameter in the place of each of these names
that stands alone: `sort_withParameters`. Reading takes the same tokens then, and it fails in the
same way. Which names are parameters is looked up for each name as it is read, before a plain
`Bool` is; that this comes to a substitution in the sort as a whole is the induction over its
nesting.

Only a sort definition has parameters. So in a command that was read, no other sort has any, and
the body of the definition has none but those listed: `Command.parametersListed_of_spelled`.
-/

namespace SmtSession

/-! ## Parameters in the place of names -/

namespace SmtSort

section

variable (parameters : List String)

mutual

/-- The sort with a parameter in the place of each of the names that stands alone, that is without
arguments and without indices. -/
def withParameters : SmtSort → SmtSort
  | .bool pos => if "Bool" ∈ parameters then .parameter "Bool" pos else .bool pos
  | .family name args indices pos =>
    if args.isEmpty ∧ indices.isEmpty ∧ name ∈ parameters then .parameter name pos
    else .family name (withParametersAll args) indices pos
  | .abbreviation name listed definition pos =>
    .abbreviation name listed (withParameters definition) pos
  | .function args result pos => .function (withParametersAll args) (withParameters result) pos
  | .parameter name pos => .parameter name pos

def withParametersAll : List SmtSort → List SmtSort
  | [] => []
  | s :: ss => withParameters s :: withParametersAll ss

end

end

variable {parameters : List String}

theorem withParametersAll_eq_map (ss : List SmtSort) :
    withParametersAll parameters ss = ss.map (withParameters parameters) := by
  induction ss with
  | nil => rfl
  | cons s ss ih => rw [withParametersAll, ih]; rfl

theorem withParameters_name (name : String) (pos : Option Pos) :
    withParameters parameters (.family name [] [] pos) =
      if name ∈ parameters then .parameter name pos else .family name [] [] pos := by
  simp [withParameters, withParametersAll]

/-- The head of an applied sort is kept. -/
theorem withParameters_applied (name : String) {args : List SmtSort} (some : ¬ args.isEmpty = true)
    (pos : Option Pos) : withParameters parameters (.family name args [] pos) =
      .family name (args.map (withParameters parameters)) [] pos := by
  rw [withParameters, if_neg (fun alone => some alone.1), withParametersAll_eq_map]

/-- The name of an indexed sort is kept. -/
theorem withParameters_indexed (name : String) {indices : List Index}
    (some : ¬ indices.isEmpty = true) (pos : Option Pos) :
    withParameters parameters (.family name [] indices pos) = .family name [] indices pos := by
  rw [withParameters, if_neg (fun alone => some alone.2.1), withParametersAll]

example : withParameters ["X", "Bool"] (.family "Pair" [.family "X" [.bool none] [] none,
    .family "X" [] [.number 1] none, .family "Bool" [] [] none, .family "Y" [] [] none] [] none) =
    .family "Pair" [.family "X" [.parameter "Bool" none] [] none,
      .family "X" [] [.number 1] none, .parameter "Bool" none, .family "Y" [] [] none] [] none := by
  rfl

end SmtSort

/-! ## Readers of images -/

namespace Reader

/-- The image of what was read; the tokens that are left and an error stay as they are. -/
def Outcome.map (g : α → β) : Outcome α → Outcome β
  | .done a rest => .done (g a) rest
  | .failed e rest => .failed e rest

theorem map_apply (g : α → β) (r : Reader α) (input : Input) (ts : List Token) :
    (g <$> r) input ts = (r input ts).map g := by
  show (r >>= fun a => pure (g a)) input ts = _
  cases found : r input ts with
  | done a rest => rw [bind_of_done found]; rfl
  | failed e rest => rw [bind_of_failed found]; rfl

instance : LawfulMonad Reader := LawfulMonad.mk' Reader
  (by
    intro α r
    funext input ts
    rw [map_apply]
    cases r input ts <;> rfl)
  (fun _ _ => rfl)
  (by
    intro α β γ r f g
    funext input ts
    simp only [bind]
    cases r input ts <;> rfl)

variable {g : α → β} {t u : Token}

@[simp] theorem map_refuseSpan (cause : Cause) :
    g <$> (refuseSpan cause t u : Reader α) = refuseSpan cause t u :=
  rfl

@[simp] theorem map_endOfInput (place : Place) :
    g <$> (endOfInput place : Reader α) = endOfInput place := by
  funext input ts
  rw [map_apply, endOfInput, endOfInput]
  cases input.malformed? <;> rfl

/-- What follows a reader need only be the same for the values that the reader can give. -/
theorem bind_congr_of_takes {r : Reader α} {f f' : α → Reader β} {P : Input → α → Prop}
    (takes : ∀ input, TakesNone input r (P input)) (same : ∀ input a, P input a → f a = f' a) :
    r >>= f = r >>= f' := by
  funext input ts
  cases found : r input ts with
  | failed e rest => rw [bind_of_failed found, bind_of_failed found]
  | done a rest =>
    obtain ⟨-, -, -, holds⟩ := takes input ts rest a found
    rw [bind_of_done found, bind_of_done found, same input a holds]

/-- **Items that are images** are the images of the items, up to the same parenthesis. -/
theorem untilClosing_map (g : α → β) (place : String) (item : Token → Reader α) (bound : Nat) :
    untilClosing place (fun t => g <$> item t) bound =
      (fun p => (p.1.map g, p.2)) <$> untilClosing place item bound := by
  induction bound with
  | zero => exact (map_endOfInput _).symm
  | succ bound ih =>
    unfold untilClosing
    rw [map_bind]
    refine bind_congr fun t => ?_
    split
    · rw [map_pure]
      rfl
    · rw [bind_map_left, map_bind, ih]
      refine bind_congr fun a => ?_
      rw [bind_map_left, map_bind]
      exact bind_congr fun p => (map_pure _ _).symm

/-! ## Reading with parameters -/

section

variable (parameters : List String)

/-- A name that stands alone. Where the name is plain `Bool`, the parameters go first. -/
theorem sortName_withParameters (t : Token) :
    sortName parameters t = SmtSort.withParameters parameters <$> sortName [] t := by
  unfold sortName
  rw [map_bind]
  refine bind_congr_of_takes (fun _ => Takes.symbolOf t) ?_
  rintro _ s ⟨names, -⟩
  rw [if_neg (List.not_mem_nil (a := s.name))]
  -- the Boolean sort carries no name: that its symbol is called so is known from the token
  by_cases bool : t.lexeme = .plain "Bool"
  · have name : "Bool" = s.name := by
      rw [bool] at names
      exact names.1
    rw [if_pos bool, map_pure, SmtSort.withParameters, name, apply_ite Pure.pure]
  · rw [if_neg bool, map_pure, SmtSort.withParameters_name, apply_ite Pure.pure]

/-- An indexed sort has no parameters in it. -/
theorem indexedSort_withParameters (t : Token) :
    SmtSort.withParameters parameters <$> indexedSort t = indexedSort t := by
  unfold indexedSort
  simp only [map_bind]
  refine bind_congr fun s => bind_congr fun n => bind_congr fun items => ?_
  obtain ⟨indices, close⟩ := items
  dsimp only
  split
  · exact map_refuseSpan _
  · next some =>
    rw [map_bind]
    refine bind_congr fun pos => ?_
    rw [map_pure, SmtSort.withParameters_indexed]
    simpa using some

/-- **The sort that starts with a token** is read with parameters as without, and has them in the
place of the names. -/
theorem sortOf_withParameters (bound : Nat) (t : Token) :
    sortOf parameters bound t = SmtSort.withParameters parameters <$> sortOf [] bound t := by
  induction bound generalizing t with
  | zero =>
    unfold sortOf
    split
    · exact sortName_withParameters parameters t
    · exact (map_endOfInput _).symm
  | succ bound ih =>
    have args : untilClosing "a sort" (sortOf parameters bound) bound =
        (fun p => (p.1.map (SmtSort.withParameters parameters), p.2)) <$>
          untilClosing "a sort" (sortOf [] bound) bound := by
      rw [← untilClosing_map, ← funext ih]
    unfold sortOf
    split
    · exact sortName_withParameters parameters t
    rw [map_bind]
    refine bind_congr fun head => ?_
    split
    · exact (indexedSort_withParameters parameters t).symm
    rw [map_bind, args]
    refine bind_congr fun s => ?_
    rw [bind_map_left, map_bind]
    refine bind_congr fun items => ?_
    obtain ⟨args, close⟩ := items
    dsimp only
    rw [List.isEmpty_map]
    split
    · exact (map_refuseSpan _).symm
    · next some =>
      rw [map_bind]
      refine bind_congr fun pos => ?_
      rw [map_pure, SmtSort.withParameters_applied _ some]

theorem sort_withParameters :
    sort parameters = SmtSort.withParameters parameters <$> sort [] := by
  unfold sort
  simp only [map_bind]
  exact bind_congr fun t => bind_congr fun n => sortOf_withParameters parameters n t

end

end Reader

/-! ## Where parameters stand -/

mutual

/-- The names that are parameters in a sort, in the order of the source. -/
def SmtSort.parameterNames : SmtSort → List String
  | .bool _ => []
  | .family _ args _ _ => SmtSort.parameterNamesAll args
  | .abbreviation _ _ definition _ => SmtSort.parameterNames definition
  | .function args result _ => SmtSort.parameterNamesAll args ++ SmtSort.parameterNames result
  | .parameter name _ => [name]

def SmtSort.parameterNamesAll : List SmtSort → List String
  | [] => []
  | s :: ss => SmtSort.parameterNames s ++ SmtSort.parameterNamesAll ss

end

def Declaration.parameterNames (decl : Declaration) : List String :=
  decl.sort.parameterNames

mutual

/-- The names that are parameters in the sorts of a term. -/
def Term.parameterNames : Term → List String
  | .qualified _ σ _ => σ.parameterNames
  | .apply head args _ => Term.parameterNames head ++ Term.parameterNamesAll args
  | .quantified _ parameters body _ =>
    parameters.flatMap Declaration.parameterNames ++ Term.parameterNames body
  | .letIn bindings body _ => Binding.parameterNamesAll bindings ++ Term.parameterNames body
  | .attributed term attributes _ =>
    Term.parameterNames term ++ Attribute.parameterNamesAll attributes
  | .sort σ => σ.parameterNames
  | .declaration d => d.parameterNames
  | .binding b => Binding.parameterNames b
  | .attr a => Attribute.parameterNames a
  | _ => []

def Binding.parameterNames : Binding → List String
  | .mk _ t => Term.parameterNames t

def Attribute.parameterNames : Attribute → List String
  | .mk _ none => []
  | .mk _ (some v) => Term.parameterNames v

def Term.parameterNamesAll : List Term → List String
  | [] => []
  | t :: ts => Term.parameterNames t ++ Term.parameterNamesAll ts

def Binding.parameterNamesAll : List Binding → List String
  | [] => []
  | b :: bs => Binding.parameterNames b ++ Binding.parameterNamesAll bs

def Attribute.parameterNamesAll : List Attribute → List String
  | [] => []
  | a :: as => Attribute.parameterNames a ++ Attribute.parameterNamesAll as

end

def Setting.parameterNames : Setting → List String
  | .term v => v.parameterNames
  | _ => []

namespace Command

/-- The names that are parameters in any sort of a command. -/
def parameterNames : Command → List String
  | .setOption _ v => v.parameterNames
  | .setInfo _ v => v.parameterNames
  | .declareFun _ args result => SmtSort.parameterNamesAll args ++ result.parameterNames
  | .declareConst _ sort => sort.parameterNames
  | .defineFun _ parameters result body =>
    parameters.flatMap Declaration.parameterNames ++ result.parameterNames ++ body.parameterNames
  | .defineSort _ _ definition => definition.parameterNames
  | .assert term => term.parameterNames
  | .getValue terms => Term.parameterNamesAll terms
  | .echo message => message.parameterNames
  | _ => []

/-- **Parameters stand in the body of a sort definition only**, and have names that are listed
there. -/
def ParametersListed (c : Command) : Prop :=
  ∀ parameter ∈ c.parameterNames, ∃ name listed definition,
    c = .defineSort name listed definition ∧ parameter ∈ listed.map Symbol.name

end Command

/-! ## What is read has the parameters that are listed -/

mutual

/-- **The parameters in a sort are those that it is spelled with.** -/
theorem SmtSort.parameterNames_subset {parameters : List String} : (s : SmtSort) →
    {ls : List Lexeme} → s.Spelled parameters ls → s.parameterNames ⊆ parameters
  | .bool _, _, _ => List.nil_subset _
  | .parameter _ _, _, ⟨_, _, _, listed⟩ => List.cons_subset.mpr ⟨listed, List.nil_subset _⟩
  | .family _ args _ _, _, spelled => by
    rcases spelled with ⟨rfl, -⟩ | ⟨-, -, _, _, -, -, -, all⟩ | ⟨rfl, -⟩
    · exact List.nil_subset _
    · exact parameterNamesAll_subset args all
    · exact List.nil_subset _

theorem SmtSort.parameterNamesAll_subset {parameters : List String} : (ss : List SmtSort) →
    {ls : List Lexeme} → SmtSort.AllSpelled parameters ss ls →
      SmtSort.parameterNamesAll ss ⊆ parameters
  | [], _, _ => List.nil_subset _
  | s :: ss, _, ⟨_, _, _, spelled, more⟩ =>
    List.append_subset.mpr ⟨parameterNames_subset s spelled, parameterNamesAll_subset ss more⟩

end

/-- A sort that is spelled without parameters has none. -/
theorem SmtSort.parameterNames_eq_nil {s : SmtSort} {ls : List Lexeme} (spelled : s.Spelled [] ls) :
    s.parameterNames = [] :=
  List.subset_nil.mp (s.parameterNames_subset spelled)

theorem Declaration.parameterNames_eq_nil {decls : List Declaration} {ls : List Lexeme}
    (spelled : SpelledAll Declaration.Spelled decls ls) :
    decls.flatMap Declaration.parameterNames = [] := by
  refine List.flatMap_eq_nil_iff.mpr (spelled.forall_mem ?_ fun _ _ => trivial)
  rintro d _ ⟨_, _, _, _, sort⟩ -
  exact SmtSort.parameterNames_eq_nil sort

/-- A word has no sorts. -/
theorem Term.parameterNames_of_word {t : Term} {ls : List Lexeme} (word : t.SpelledWord ls) :
    t.parameterNames = [] := by
  cases t with
  | symbol => rfl
  | _ => cases word

mutual

/-- **The sorts in a term have no parameters.** -/
theorem Term.parameterNames_eq_nil : (t : Term) → {ls : List Lexeme} → t.Spelled ls →
    t.parameterNames = []
  | .numeral _ _, _, _ | .decimal _ _, _, _ | .hex _ _, _, _ | .binary _ _, _, _
  | .string _ _, _, _ | .symbol _, _, _ | .keyword _, _, _ | .indexed _ _ _, _, _ => rfl
  | .qualified _ _ _, _, ⟨_, _, _, _, spelled⟩ => SmtSort.parameterNames_eq_nil spelled
  | .apply head args _, _, ⟨_, _, _, _, head_spelled, all⟩ =>
    List.append_eq_nil_iff.mpr
      ⟨parameterNames_eq_nil head head_spelled, parameterNamesAll_eq_nil args all⟩
  | .quantified _ _ body _, _, ⟨_, _, _, _, decls, spelled⟩ =>
    List.append_eq_nil_iff.mpr
      ⟨Declaration.parameterNames_eq_nil decls, parameterNames_eq_nil body spelled⟩
  | .letIn bindings body _, _, ⟨_, _, _, _, bound, spelled⟩ =>
    List.append_eq_nil_iff.mpr
      ⟨bindings_parameterNames_eq_nil bindings bound, parameterNames_eq_nil body spelled⟩
  | .attributed term attributes _, _, ⟨_, _, _, _, spelled, all⟩ =>
    List.append_eq_nil_iff.mpr
      ⟨parameterNames_eq_nil term spelled, attributes_parameterNames_eq_nil attributes all⟩
  | .error _ _, _, spelled | .sort _, _, spelled | .declaration _, _, spelled
  | .binding _, _, spelled | .attr _, _, spelled => absurd spelled id

theorem Term.parameterNamesAll_eq_nil : (ts : List Term) → {ls : List Lexeme} →
    Term.AllSpelled ts ls → Term.parameterNamesAll ts = []
  | [], _, _ => rfl
  | t :: ts, _, ⟨_, _, _, spelled, more⟩ =>
    List.append_eq_nil_iff.mpr
      ⟨parameterNames_eq_nil t spelled, parameterNamesAll_eq_nil ts more⟩

theorem Term.bindings_parameterNames_eq_nil : (bs : List Binding) → {ls : List Lexeme} →
    Term.BindingsSpelled bs ls → Binding.parameterNamesAll bs = []
  | [], _, _ => rfl
  | .mk _ t :: bs, _, ⟨_, _, _, _, _, spelled, more⟩ =>
    List.append_eq_nil_iff.mpr
      ⟨parameterNames_eq_nil t spelled, bindings_parameterNames_eq_nil bs more⟩

theorem Term.attributes_parameterNames_eq_nil : (as : List Attribute) → {ls : List Lexeme} →
    Term.AttributesSpelled as ls → Attribute.parameterNamesAll as = []
  | [], _, _ => rfl
  | .mk _ none :: as, _, ⟨_, _, _, more⟩ => attributes_parameterNames_eq_nil as more
  | .mk _ (some v) :: as, _, ⟨_, _, _, _, _, value, more⟩ =>
    List.append_eq_nil_iff.mpr
      ⟨value.elim (parameterNames_eq_nil v) parameterNames_of_word,
        attributes_parameterNames_eq_nil as more⟩

end

theorem Setting.parameterNames_eq_nil {v : Setting} {ls : List Lexeme} (spelled : v.Spelled ls) :
    v.parameterNames = [] := by
  cases v with
  | term t => exact spelled.elim t.parameterNames_eq_nil Term.parameterNames_of_word
  | _ => rfl

namespace Command

theorem parametersListed_of_none {c : Command} (none : c.parameterNames = []) :
    c.ParametersListed := by
  intro parameter is
  rw [none] at is
  cases is

/-- **A command that is spelled has its parameters listed.** -/
theorem parametersListed_of_spelled {c : Command} {ls : List Lexeme} (spelled : c.Spelled ls) :
    c.ParametersListed := by
  obtain ⟨_, -, spelled⟩ := spelled
  cases c with
  | defineSort name parameters definition =>
    obtain ⟨_, _, _, -, -, -, spelled⟩ := spelled
    intro parameter is
    exact ⟨name, parameters, definition, rfl, definition.parameterNames_subset spelled is⟩
  | declareConst name sort =>
    obtain ⟨_, _, -, -, spelled⟩ := spelled
    exact parametersListed_of_none (SmtSort.parameterNames_eq_nil spelled)
  | declareFun name args result =>
    obtain ⟨_, _, _, -, -, all, spelled⟩ := spelled
    have of_args := List.subset_nil.mp (SmtSort.parameterNamesAll_subset args all)
    exact parametersListed_of_none
      (List.append_eq_nil_iff.mpr ⟨of_args, SmtSort.parameterNames_eq_nil spelled⟩)
  | defineFun name parameters result body =>
    obtain ⟨_, _, _, _, -, -, decls, of_result, of_body⟩ := spelled
    have signature := List.append_eq_nil_iff.mpr
      ⟨Declaration.parameterNames_eq_nil decls, SmtSort.parameterNames_eq_nil of_result⟩
    exact parametersListed_of_none
      (List.append_eq_nil_iff.mpr ⟨signature, body.parameterNames_eq_nil of_body⟩)
  | assert term => exact parametersListed_of_none (term.parameterNames_eq_nil spelled)
  | getValue terms =>
    obtain ⟨-, _, -, all⟩ := spelled
    exact parametersListed_of_none (Term.parameterNamesAll_eq_nil terms all)
  | setOption key value =>
    obtain ⟨_, _, -, -, spelled⟩ := spelled
    exact parametersListed_of_none (Setting.parameterNames_eq_nil spelled)
  | setInfo key value =>
    cases value with
    | term t =>
      obtain ⟨_, _, -, -, spelled⟩ := spelled
      exact parametersListed_of_none (Setting.parameterNames_eq_nil spelled)
    | _ => exact parametersListed_of_none rfl
  | echo message =>
    cases message with
    | string => exact parametersListed_of_none rfl
    | _ => exact absurd spelled id
  | _ => exact parametersListed_of_none rfl

end Command

/-! ## Sorts, commands and scripts -/

namespace Reader

/-- What it is for sort parameters to be a substitution. -/
structure SubstitutesParameters : Prop where
  /-- The next sort is read with parameters as without: the same tokens are left, the sort has
  the parameters in the place of the names, and an error is the same. -/
  sort : ∀ parameters input ts, Reader.sort parameters input ts =
    (Reader.sort [] input ts).map (SmtSort.withParameters parameters)
  /-- So is the sort that starts with a token that was taken before. -/
  sortOf : ∀ parameters bound t input ts, Reader.sortOf parameters bound t input ts =
    (Reader.sortOf [] bound t input ts).map (SmtSort.withParameters parameters)
  /-- A sort has only those parameters that it is read with, so none where there are none. -/
  listed : ∀ parameters input ts σ rest, Reader.sort parameters input ts = .done σ rest →
    σ.parameterNames ⊆ parameters
  /-- Parameters stand only where they are listed, in every command that is read … -/
  command : ∀ input ts c rest, Reader.command? input ts = .done (some c) rest → c.ParametersListed
  /-- … and so in all commands of a script. -/
  script : ∀ source cs, readScript source = .ok cs → ∀ c ∈ cs, c.ParametersListed

/-- **The parameters of a sort definition are a substitution**, and stand nowhere else. -/
theorem substitutes_parameters : SubstitutesParameters where
  sort parameters input ts := by
    rw [sort_withParameters, map_apply]
  sortOf parameters bound t input ts := by
    rw [sortOf_withParameters, map_apply]
  listed parameters input ts σ rest done := by
    obtain ⟨_, -, spelled⟩ := Takes.sort_spelled parameters ts rest σ done
    exact σ.parameterNames_subset spelled
  command input ts c rest done := by
    obtain ⟨_, -, spelled⟩ := Takes.command? ts rest (some c) done
    exact Command.parametersListed_of_spelled spelled
  script source cs read := by
    obtain ⟨done, -⟩ := done_of_readAll read
    obtain ⟨_, -, spelled⟩ := Takes.script _ _ _ done
    exact spelled.forall_mem (fun _ _ spelled _ => Command.parametersListed_of_spelled spelled)
      fun _ _ => trivial

/-- Names that are parameters, as the head of an applied sort, with an index, and outside of
the definition that lists them. -/
theorem substitutes_parameters_pair :
    let source : Source :=
      ⟨"(define-sort P (X |Bool|) (Pair X (X Bool) (_ X 1) |Bool| Y))(declare-const c X)", none⟩
    ∃ cs, readScript source = .ok cs ∧
      cs.map Command.parameterNames = [["X", "Bool", "Bool"], []] ∧
      ∀ c ∈ cs, c.ParametersListed := by
  intro source
  have named : (readScript source).toOption.map (List.map Command.parameterNames) =
      some [["X", "Bool", "Bool"], []] := by decide +kernel
  obtain ⟨cs, read, names⟩ := exists_of_readScript named
  exact ⟨cs, read, names, substitutes_parameters.script source cs read⟩

end Reader

end SmtSession
