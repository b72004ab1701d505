import SmtSession.Proofs.Reader.Spelling

/-!
# Trees with other positions

**To relocate a tree** is to put another position in the place of each one that it carries,
and to leave the rest as it is. So a tree and a relocated one are the same without positions:
`Term.bare_relocate`.

The definitions follow the trees. Lists of parts are relocated one by one, so a relocated list
is a map.
-/

namespace SmtSession

section

variable (f : Option Pos → Option Pos)

/-- The symbol at another position. -/
def Symbol.relocate (s : Symbol) : Symbol :=
  ⟨s.name, f s.pos⟩

/-- The keyword at another position. -/
def Keyword.relocate (k : Keyword) : Keyword :=
  ⟨k.name, f k.pos⟩

mutual

/-- The sort with other positions. -/
def SmtSort.relocate : SmtSort → SmtSort
  | .bool pos => .bool (f pos)
  | .family name args indices pos => .family name (SmtSort.relocateAll args) indices (f pos)
  | .abbreviation name parameters definition pos =>
    .abbreviation name parameters (SmtSort.relocate definition) (f pos)
  | .function args result pos =>
    .function (SmtSort.relocateAll args) (SmtSort.relocate result) (f pos)
  | .parameter name pos => .parameter name (f pos)

def SmtSort.relocateAll : List SmtSort → List SmtSort
  | [] => []
  | s :: ss => SmtSort.relocate s :: SmtSort.relocateAll ss

end

/-- The variable and its sort with other positions. -/
def Declaration.relocate (decl : Declaration) : Declaration :=
  ⟨decl.parameter.relocate f, decl.sort.relocate f⟩

mutual

/-- The term with other positions. -/
def Term.relocate : Term → Term
  | .numeral value pos => .numeral value (f pos)
  | .decimal text pos => .decimal text (f pos)
  | .hex digits pos => .hex digits (f pos)
  | .binary digits pos => .binary digits (f pos)
  | .string content pos => .string content (f pos)
  | .symbol s => .symbol (s.relocate f)
  | .keyword k => .keyword (k.relocate f)
  | .qualified s σ pos => .qualified (s.relocate f) (σ.relocate f) (f pos)
  | .indexed s indices pos => .indexed (s.relocate f) indices (f pos)
  | .apply head args pos => .apply (Term.relocate head) (Term.relocateAll args) (f pos)
  | .quantified q parameters body pos =>
    .quantified q (parameters.map (Declaration.relocate f)) (Term.relocate body) (f pos)
  | .letIn bindings body pos =>
    .letIn (Term.relocateBindings bindings) (Term.relocate body) (f pos)
  | .attributed term attributes pos =>
    .attributed (Term.relocate term) (Term.relocateAttributes attributes) (f pos)
  | .error message pos => .error message (f pos)
  | .sort σ => .sort (σ.relocate f)
  | .declaration d => .declaration (d.relocate f)
  | .binding b => .binding (Binding.relocate b)
  | .attr a => .attr (Attribute.relocate a)

/-- The binding with other positions. -/
def Binding.relocate : Binding → Binding
  | .mk s t => .mk (s.relocate f) (Term.relocate t)

/-- The annotation with other positions. -/
def Attribute.relocate : Attribute → Attribute
  | .mk k none => .mk (k.relocate f) none
  | .mk k (some v) => .mk (k.relocate f) (some (Term.relocate v))

def Term.relocateAll : List Term → List Term
  | [] => []
  | t :: ts => Term.relocate t :: Term.relocateAll ts

def Term.relocateBindings : List Binding → List Binding
  | [] => []
  | b :: bs => Binding.relocate b :: Term.relocateBindings bs

def Term.relocateAttributes : List Attribute → List Attribute
  | [] => []
  | a :: as => Attribute.relocate a :: Term.relocateAttributes as

end

/-- The value with other positions. -/
def Setting.relocate : Setting → Setting
  | .term v => .term (v.relocate f)
  | v => v

/-- The command with other positions. -/
def Command.relocate : Command → Command
  | .setLogic logic => .setLogic (logic.relocate f)
  | .setOption k v => .setOption (k.relocate f) (v.relocate f)
  | .getOption k => .getOption (k.relocate f)
  | .setInfo k v => .setInfo (k.relocate f) (v.relocate f)
  | .getInfo k => .getInfo (k.relocate f)
  | .declareFun name args result =>
    .declareFun (name.relocate f) (args.map (SmtSort.relocate f)) (result.relocate f)
  | .declareConst name sort => .declareConst (name.relocate f) (sort.relocate f)
  | .defineFun name parameters result body =>
    .defineFun (name.relocate f) (parameters.map (Declaration.relocate f)) (result.relocate f)
      (body.relocate f)
  | .declareSort name arity => .declareSort (name.relocate f) arity
  | .defineSort name parameters definition =>
    .defineSort (name.relocate f) (parameters.map (Symbol.relocate f)) (definition.relocate f)
  | .assert term => .assert (term.relocate f)
  | .push count => .push count
  | .pop count => .pop count
  | .checkSat => .checkSat
  | .getValue terms => .getValue (terms.map (Term.relocate f))
  | .getProof => .getProof
  | .getUnsatCore => .getUnsatCore
  | .getAssignment => .getAssignment
  | .exit => .exit
  | .echo message => .echo (message.relocate f)
  | .getModel => .getModel
  | .getAssertions => .getAssertions
  | .reset => .reset
  | .resetAssertions => .resetAssertions
  | .other name => .other name

end

/-! ## Lists of parts -/

variable {f : Option Pos → Option Pos}

theorem SmtSort.relocateAll_eq_map (ss : List SmtSort) :
    SmtSort.relocateAll f ss = ss.map (SmtSort.relocate f) := by
  induction ss with
  | nil => rfl
  | cons s ss ih => rw [SmtSort.relocateAll, ih]; rfl

theorem Term.relocateAll_eq_map (ts : List Term) :
    Term.relocateAll f ts = ts.map (Term.relocate f) := by
  induction ts with
  | nil => rfl
  | cons t ts ih => rw [Term.relocateAll, ih]; rfl

theorem Term.relocateBindings_eq_map (bs : List Binding) :
    Term.relocateBindings f bs = bs.map (Binding.relocate f) := by
  induction bs with
  | nil => rfl
  | cons b bs ih => rw [Term.relocateBindings, ih]; rfl

theorem Term.relocateAttributes_eq_map (as : List Attribute) :
    Term.relocateAttributes f as = as.map (Attribute.relocate f) := by
  induction as with
  | nil => rfl
  | cons a as ih => rw [Term.relocateAttributes, ih]; rfl

/-! ## Without positions -/

mutual

theorem SmtSort.bare_relocate : (s : SmtSort) → (s.relocate f).bare = s.bare
  | .bool _ | .parameter _ _ => rfl
  | .family name args indices _ => by
    rw [SmtSort.relocate, SmtSort.bare, SmtSort.bare, bareAll_relocateAll args]
  | .abbreviation name parameters definition _ => by
    rw [SmtSort.relocate, SmtSort.bare, SmtSort.bare, bare_relocate definition]
  | .function args result _ => by
    rw [SmtSort.relocate, SmtSort.bare, SmtSort.bare, bareAll_relocateAll args,
      bare_relocate result]

theorem SmtSort.bareAll_relocateAll :
    (ss : List SmtSort) → SmtSort.bareAll (SmtSort.relocateAll f ss) = SmtSort.bareAll ss
  | [] => rfl
  | s :: ss => by
    rw [SmtSort.relocateAll, SmtSort.bareAll, SmtSort.bareAll, bare_relocate s,
      bareAll_relocateAll ss]

end

theorem Declaration.bare_relocate (d : Declaration) : (d.relocate f).bare = d.bare := by
  rw [relocate, bare, SmtSort.bare_relocate]
  rfl

theorem Declaration.map_bare_relocate (ds : List Declaration) :
    (ds.map (Declaration.relocate f)).map Declaration.bare = ds.map Declaration.bare := by
  rw [List.map_map]
  exact List.map_congr_left fun d _ => d.bare_relocate

mutual

/-- **A relocated tree is the same without positions.** -/
theorem Term.bare_relocate : (t : Term) → (t.relocate f).bare = t.bare
  | .numeral _ _ | .decimal _ _ | .hex _ _ | .binary _ _ | .string _ _ => rfl
  | .symbol _ | .keyword _ | .indexed _ _ _ | .error _ _ => rfl
  | .qualified s σ _ => by rw [Term.relocate, Term.bare, Term.bare, σ.bare_relocate]; rfl
  | .apply head args _ => by
    rw [Term.relocate, Term.bare, Term.bare, bare_relocate head, bareAll_relocateAll args]
  | .quantified q parameters body _ => by
    rw [Term.relocate, Term.bare, Term.bare, bare_relocate body, Declaration.map_bare_relocate]
  | .letIn bindings body _ => by
    rw [Term.relocate, Term.bare, Term.bare, bareBindings_relocateBindings bindings,
      bare_relocate body]
  | .attributed term attributes _ => by
    rw [Term.relocate, Term.bare, Term.bare, bare_relocate term,
      bareAttributes_relocateAttributes attributes]
  | .sort σ => by rw [Term.relocate, Term.bare, Term.bare, σ.bare_relocate]
  | .declaration d => by rw [Term.relocate, Term.bare, Term.bare, d.bare_relocate]
  | .binding (.mk s t) => by
    rw [Term.relocate, Binding.relocate, Term.bare, Term.bare, bare_relocate t]
    rfl
  | .attr (.mk k none) => rfl
  | .attr (.mk k (some v)) => by
    rw [Term.relocate, Attribute.relocate, Term.bare, Term.bare, bare_relocate v]
    rfl

theorem Term.bareAll_relocateAll :
    (ts : List Term) → Term.bareAll (Term.relocateAll f ts) = Term.bareAll ts
  | [] => rfl
  | t :: ts => by
    rw [Term.relocateAll, Term.bareAll, Term.bareAll, bare_relocate t, bareAll_relocateAll ts]

theorem Term.bareBindings_relocateBindings :
    (bs : List Binding) → Term.bareBindings (Term.relocateBindings f bs) = Term.bareBindings bs
  | [] => rfl
  | .mk s t :: bs => by
    rw [Term.relocateBindings, Binding.relocate, Term.bareBindings, Term.bareBindings,
      bare_relocate t, bareBindings_relocateBindings bs]
    rfl

theorem Term.bareAttributes_relocateAttributes :
    (as : List Attribute) →
      Term.bareAttributes (Term.relocateAttributes f as) = Term.bareAttributes as
  | [] => rfl
  | .mk k none :: as => by
    rw [Term.relocateAttributes, Attribute.relocate, Term.bareAttributes, Term.bareAttributes,
      bareAttributes_relocateAttributes as]
    rfl
  | .mk k (some v) :: as => by
    rw [Term.relocateAttributes, Attribute.relocate, Term.bareAttributes, Term.bareAttributes,
      bare_relocate v, bareAttributes_relocateAttributes as]
    rfl

end

theorem Setting.bare_relocate (v : Setting) : (v.relocate f).bare = v.bare := by
  cases v with
  | term t => rw [Setting.relocate, Setting.bare, Setting.bare, t.bare_relocate]
  | _ => rfl

theorem Command.bare_relocate (c : Command) : (c.relocate f).bare = c.bare := by
  cases c with
  | setOption _ v | setInfo _ v =>
    rw [Command.relocate, Command.bare, Command.bare, v.bare_relocate]
    rfl
  | declareFun name args result =>
    rw [Command.relocate, Command.bare, Command.bare, ← SmtSort.relocateAll_eq_map,
      SmtSort.bareAll_relocateAll, result.bare_relocate]
    rfl
  | declareConst _ sort =>
    rw [Command.relocate, Command.bare, Command.bare, sort.bare_relocate]
    rfl
  | defineSort _ parameters sort =>
    rw [Command.relocate, Command.bare, Command.bare, sort.bare_relocate, List.map_map]
    rfl
  | defineFun name parameters result body =>
    rw [Command.relocate, Command.bare, Command.bare, Declaration.map_bare_relocate,
      result.bare_relocate, body.bare_relocate]
    rfl
  | assert t | echo t =>
    rw [Command.relocate, Command.bare, Command.bare, t.bare_relocate]
  | getValue terms =>
    rw [Command.relocate, Command.bare, Command.bare, ← Term.relocateAll_eq_map,
      Term.bareAll_relocateAll]
  | _ => rfl

end SmtSession
