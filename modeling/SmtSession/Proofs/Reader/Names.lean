import SmtSession.Proofs.Reader.TakenTerms

/-!
# Where names come from

**The names that are read are those of the text**: each name in a term, a sort or a
command that was read is an atom of the text, or what stands there between bars. So
what holds of all atoms and of all quoted symbols of a text holds of all names that a
session is given from it: `names_of_readScript`.

The names are those that an engine can be told. Indices and annotations are left
aside.

What is read is spelled by the tokens that were taken, so this is said of spellings first:
one lemma for sorts and one for terms, by induction on what is spelled.
-/

namespace SmtSession

/-! ## Names -/

section Names

variable (P : String → Prop)

mutual

/-- The names in a sort satisfy `P`. -/
def SmtSort.NamesAre : SmtSort → Prop
  | .bool _ => True
  | .family name args _ _ => P name ∧ SmtSort.NamesAreAll args
  | .abbreviation name _ definition _ => P name ∧ SmtSort.NamesAre definition
  | .function args result _ => SmtSort.NamesAreAll args ∧ SmtSort.NamesAre result
  | .parameter name _ => P name

/-- The names in several sorts satisfy `P`. -/
def SmtSort.NamesAreAll : List SmtSort → Prop
  | [] => True
  | s :: ss => SmtSort.NamesAre s ∧ SmtSort.NamesAreAll ss

end

/-- The name of a variable and those of its sort satisfy `P`. -/
def Declaration.NamesAre (d : Declaration) : Prop :=
  P d.parameter.name ∧ d.sort.NamesAre P

mutual

/-- The names in a term satisfy `P`. -/
def Term.NamesAre : Term → Prop
  | .symbol s => P s.name
  | .qualified s sort _ => P s.name ∧ sort.NamesAre P
  | .indexed s _ _ => P s.name
  | .apply head args _ => Term.NamesAre head ∧ Term.NamesAreAll args
  | .quantified _ parameters body _ =>
    (∀ d ∈ parameters, d.NamesAre P) ∧ Term.NamesAre body
  | .letIn bindings body _ => Binding.NamesAreAll bindings ∧ Term.NamesAre body
  | .attributed term _ _ => Term.NamesAre term
  | .sort sort => sort.NamesAre P
  | _ => True

/-- The names in several terms satisfy `P`. -/
def Term.NamesAreAll : List Term → Prop
  | [] => True
  | t :: ts => Term.NamesAre t ∧ Term.NamesAreAll ts

/-- The names in some bindings satisfy `P`. -/
def Binding.NamesAreAll : List Binding → Prop
  | [] => True
  | .mk s t :: bs => (P s.name ∧ Term.NamesAre t) ∧ Binding.NamesAreAll bs

end

/-- The names that a command hands to the engine satisfy `P`. -/
def Command.NamesAre : Command → Prop
  | .assert t => t.NamesAre P
  | .declareConst name sort => P name.name ∧ sort.NamesAre P
  | .declareFun name args result => P name.name ∧ (∀ s ∈ args, s.NamesAre P) ∧ result.NamesAre P
  | .declareSort name _ => P name.name
  | .defineFun name parameters result body =>
    P name.name ∧ (∀ d ∈ parameters, d.NamesAre P) ∧ result.NamesAre P ∧ body.NamesAre P
  | .defineSort name _ definition => P name.name ∧ definition.NamesAre P
  | .getValue terms => ∀ t ∈ terms, t.NamesAre P
  | _ => True

/-- The name that a lexeme can be satisfies `P`. -/
def Lexeme.NamesAre : Lexeme → Prop
  | .plain name => P name
  | .quoted name => P name
  | _ => True

end Names

variable {P : String → Prop}

theorem SmtSort.namesAreAll_iff {ss : List SmtSort} :
    SmtSort.NamesAreAll P ss ↔ ∀ s ∈ ss, s.NamesAre P := by
  induction ss with
  | nil => simp [SmtSort.NamesAreAll]
  | cons s ss ih => rw [SmtSort.NamesAreAll, List.forall_mem_cons, ih]

theorem Term.namesAreAll_iff {ts : List Term} :
    Term.NamesAreAll P ts ↔ ∀ t ∈ ts, t.NamesAre P := by
  induction ts with
  | nil => simp [Term.NamesAreAll]
  | cons t ts ih => rw [Term.NamesAreAll, List.forall_mem_cons, ih]

/-! ## Names of what is spelled -/

/-- A name that is spelled by a lexeme is that of the lexeme. -/
theorem Lexeme.name_of_names {l : Lexeme} {name : String} (names : l.Names name)
    (named : l.NamesAre P) : P name := by
  cases l with
  | plain text =>
    obtain ⟨rfl, -⟩ := names
    exact named
  | quoted content =>
    cases names
    exact named
  | _ => cases names

mutual

/-- The names in a sort are those of its spelling. -/
theorem SmtSort.namesAre_of_spelled {parameters : List String} :
    (s : SmtSort) → {ls : List Lexeme} → s.Spelled parameters ls → (∀ l ∈ ls, l.NamesAre P) →
      s.NamesAre P
  | .bool _, _, _, _ => trivial
  | .parameter name _, _, ⟨l, rfl, names, _⟩, named =>
    Lexeme.name_of_names names (named l List.mem_cons_self)
  | .family name args indices _, ls, spelled, named => by
    rcases spelled with ⟨rfl, -, l, rfl, names, -⟩ | ⟨-, -, head, ss, rfl, names, -, args_spelled⟩ |
      ⟨rfl, -, head, is, rfl, names, -⟩
    · exact ⟨Lexeme.name_of_names names (named l List.mem_cons_self), trivial⟩
    · refine ⟨Lexeme.name_of_names names (named head (by simp [parenthesised])), ?_⟩
      exact namesAreAll_of_spelled args args_spelled fun l is =>
        named l (by simp [parenthesised, is])
    · exact ⟨Lexeme.name_of_names names (named head (by simp [parenthesised])), trivial⟩

theorem SmtSort.namesAreAll_of_spelled {parameters : List String} :
    (ss : List SmtSort) → {ls : List Lexeme} → SmtSort.AllSpelled parameters ss ls →
      (∀ l ∈ ls, l.NamesAre P) → SmtSort.NamesAreAll P ss
  | [], _, _, _ => trivial
  | s :: ss, _, ⟨here, later, rfl, spelled, more⟩, named => by
    obtain ⟨first, rest⟩ := List.forall_mem_append.mp named
    exact ⟨namesAre_of_spelled s spelled first, namesAreAll_of_spelled ss more rest⟩

end

theorem Declaration.namesAre_of_spelled (d : Declaration) {ls : List Lexeme}
    (spelled : d.Spelled ls) (named : ∀ l ∈ ls, l.NamesAre P) : d.NamesAre P := by
  obtain ⟨name, sort, rfl, names, sort_spelled⟩ := spelled
  refine ⟨Lexeme.name_of_names names (named name (by simp [parenthesised])), ?_⟩
  exact SmtSort.namesAre_of_spelled _ sort_spelled fun l is => named l (by simp [parenthesised, is])

/-- What the lexemes of all items satisfy, each item does. -/
theorem SpelledAll.forall_mem {spells : α → List Lexeme → Prop} {p : Lexeme → Prop}
    {Q : α → Prop} (each : ∀ a ls, spells a ls → (∀ l ∈ ls, p l) → Q a) {as : List α}
    {ls : List Lexeme} (spelled : SpelledAll spells as ls) (all : ∀ l ∈ ls, p l) :
    ∀ a ∈ as, Q a := by
  induction as generalizing ls with
  | nil => nofun
  | cons a as ih =>
    obtain ⟨here, later, rfl, spells_here, more⟩ := spelled
    obtain ⟨first, rest⟩ := List.forall_mem_append.mp all
    exact List.forall_mem_cons.mpr ⟨each a here spells_here first, ih more rest⟩

mutual

/-- The names in a term are those of its spelling. -/
theorem Term.namesAre_of_spelled : (t : Term) → {ls : List Lexeme} → t.Spelled ls →
    (∀ l ∈ ls, l.NamesAre P) → t.NamesAre P
  | .numeral _ _, _, _, _ => trivial
  | .decimal _ _, _, _, _ => trivial
  | .hex _ _, _, _, _ => trivial
  | .binary _ _, _, _, _ => trivial
  | .string _ _, _, _, _ => trivial
  | .keyword _, _, _, _ => trivial
  | .symbol s, _, ⟨l, rfl, names, _⟩, named =>
    Lexeme.name_of_names names (named l List.mem_cons_self)
  | .qualified s σ _, _, ⟨name, ss, rfl, names, spelled⟩, named => by
    refine ⟨Lexeme.name_of_names names (named name (by simp [parenthesised])), ?_⟩
    exact SmtSort.namesAre_of_spelled σ spelled fun l is => named l (by simp [parenthesised, is])
  | .indexed s _ _, _, ⟨_, name, is, rfl, names, _⟩, named =>
    Lexeme.name_of_names names (named name (by simp [parenthesised]))
  | .apply head args _, _, ⟨_, hs, as, rfl, head_spelled, spelled⟩, named => by
    refine ⟨namesAre_of_spelled head head_spelled ?_, namesAreAll_of_spelled args spelled ?_⟩
    · exact fun l is => named l (by simp [parenthesised, is])
    · exact fun l is => named l (by simp [parenthesised, is])
  | .quantified _ parameters body _, _, ⟨_, ds, bs, rfl, all, spelled⟩, named => by
    refine ⟨all.forall_mem (fun d _ => d.namesAre_of_spelled) ?_,
      namesAre_of_spelled body spelled ?_⟩
    · exact fun l is => named l (by simp [parenthesised, is])
    · exact fun l is => named l (by simp [parenthesised, is])
  | .letIn bindings body _, _, ⟨_, bs, ts, rfl, all, spelled⟩, named => by
    refine ⟨bindingsNamed_of_spelled bindings all ?_, namesAre_of_spelled body spelled ?_⟩
    · exact fun l is => named l (by simp [parenthesised, is])
    · exact fun l is => named l (by simp [parenthesised, is])
  | .attributed term _ _, _, ⟨_, ts, as, rfl, spelled, _⟩, named =>
    namesAre_of_spelled term spelled fun l is => named l (by simp [parenthesised, is])

theorem Term.namesAreAll_of_spelled : (ts : List Term) → {ls : List Lexeme} →
    Term.AllSpelled ts ls → (∀ l ∈ ls, l.NamesAre P) → Term.NamesAreAll P ts
  | [], _, _, _ => trivial
  | t :: ts, _, ⟨here, later, rfl, spelled, more⟩, named => by
    obtain ⟨first, rest⟩ := List.forall_mem_append.mp named
    exact ⟨namesAre_of_spelled t spelled first, namesAreAll_of_spelled ts more rest⟩

theorem Term.bindingsNamed_of_spelled : (bs : List Binding) → {ls : List Lexeme} →
    Term.BindingsSpelled bs ls → (∀ l ∈ ls, l.NamesAre P) → Binding.NamesAreAll P bs
  | [], _, _, _ => trivial
  | .mk s t :: bs, _, ⟨name, ts, later, rfl, names, spelled, more⟩, named => by
    obtain ⟨first, rest⟩ := List.forall_mem_append.mp named
    have bound := namesAre_of_spelled t spelled fun l is => first l (by simp [parenthesised, is])
    have parameter := Lexeme.name_of_names names (first name (by simp [parenthesised]))
    exact ⟨⟨parameter, bound⟩, bindingsNamed_of_spelled bs more rest⟩

end

/-- The names in a command are those of its spelling. -/
theorem Command.namesAre_of_spelled (c : Command) {ls : List Lexeme} (spelled : c.Spelled ls)
    (named : ∀ l ∈ ls, l.NamesAre P) : c.NamesAre P := by
  obtain ⟨args, rfl, spelled⟩ := spelled
  replace named : ∀ l ∈ args, l.NamesAre P := fun l is => named l (by simp [parenthesised, is])
  cases c with
  | assert t => exact Term.namesAre_of_spelled t spelled named
  | declareConst name sort =>
    obtain ⟨l, ss, rfl, names, spelled⟩ := spelled
    obtain ⟨first, rest⟩ := List.forall_mem_cons.mp named
    exact ⟨Lexeme.name_of_names names first, SmtSort.namesAre_of_spelled sort spelled rest⟩
  | declareFun name args result =>
    obtain ⟨l, as, rs, rfl, names, all, spelled⟩ := spelled
    obtain ⟨first, rest⟩ := List.forall_mem_cons.mp named
    obtain ⟨inner, rest⟩ := List.forall_mem_append.mp rest
    refine ⟨Lexeme.name_of_names names first, ?_, SmtSort.namesAre_of_spelled result spelled rest⟩
    refine SmtSort.namesAreAll_iff.mp (SmtSort.namesAreAll_of_spelled args all fun l is => ?_)
    exact inner l (by simp [parenthesised, is])
  | declareSort name arity =>
    obtain ⟨l, ns, rfl, names, -⟩ := spelled
    exact Lexeme.name_of_names names (named l List.mem_cons_self)
  | defineFun name parameters result body =>
    obtain ⟨l, ds, rs, bs, rfl, names, all, result_spelled, body_spelled⟩ := spelled
    obtain ⟨first, rest⟩ := List.forall_mem_cons.mp named
    obtain ⟨inner, rest⟩ := List.forall_mem_append.mp rest
    obtain ⟨of_result, of_body⟩ := List.forall_mem_append.mp rest
    refine ⟨Lexeme.name_of_names names first, ?_,
      SmtSort.namesAre_of_spelled result result_spelled of_result,
      Term.namesAre_of_spelled body body_spelled of_body⟩
    refine all.forall_mem (fun d _ => d.namesAre_of_spelled) fun l is => ?_
    exact inner l (by simp [parenthesised, is])
  | defineSort name parameters definition =>
    obtain ⟨l, ps, ds, rfl, names, -, spelled⟩ := spelled
    obtain ⟨first, rest⟩ := List.forall_mem_cons.mp named
    obtain ⟨-, rest⟩ := List.forall_mem_append.mp rest
    exact ⟨Lexeme.name_of_names names first, SmtSort.namesAre_of_spelled definition spelled rest⟩
  | getValue terms =>
    obtain ⟨-, ts, rfl, all⟩ := spelled
    refine Term.namesAreAll_iff.mp (Term.namesAreAll_of_spelled terms all fun l is => ?_)
    exact named l (by simp [parenthesised, is])
  | _ => trivial

/-- **The names that are read are those of the text.** What holds of every atom and of
every quoted symbol of a text holds of every name in its commands. -/
theorem names_of_readScript {source : Source} {cs : List Command}
    (read : readScript source = .ok cs)
    (named : ∀ t ∈ source.tokenize.list, t.lexeme.NamesAre P) : ∀ c ∈ cs, c.NamesAre P := by
  obtain ⟨done, -⟩ := Reader.done_of_readAll read
  obtain ⟨taken, all, spelled⟩ := Reader.Takes.script _ _ _ done
  rw [List.append_nil] at all
  refine spelled.forall_mem (fun c _ => c.namesAre_of_spelled) fun l is => ?_
  obtain ⟨t, of_text, rfl⟩ := List.mem_map.mp is
  exact named t (all ▸ of_text)

end SmtSession
