import SmtSession.Backend
import SmtSession.Proofs.Dialect.Desugaring
import SmtSession.Proofs.Reader.Names
import SmtSession.Proofs.Session.Wires

/-!
# Wires are framed

**A wire is framed** when it is one parenthesised expression on one line: its
parentheses match, the first and the last of them match each other, and the one line
feed is at its end. An engine that takes commands line by line, or expression by
expression, takes a framed wire for one command.

Names are written as they are, so a wire is framed when the names in it can stand
inside one: `Text.Inline`. The words of the dialect can, since they have neither
parentheses nor line feeds (`Dialect.Plain`), and what is put together of such parts
can as well: `spell_inline`.
-/

namespace SmtSession

/-! ## Texts that can stand in a line -/

namespace Text

/-- Parentheses match: each one that is opened is closed behind it. -/
inductive Balanced : List Char → Prop
  | nil : Balanced []
  | cons {c : Char} {cs : List Char} (opens : c ≠ '(') (closes : c ≠ ')') (rest : Balanced cs) :
      Balanced (c :: cs)
  | nested {inner cs : List Char} (inside : Balanced inner) (rest : Balanced cs) :
      Balanced ('(' :: (inner ++ ')' :: cs))

/-- The text can stand in a line, inside an expression. -/
structure Inline (cs : List Char) : Prop where
  balanced : Balanced cs
  line : '\n' ∉ cs

/-- The name can stand in a line as it is. -/
def InlineName (name : String) : Prop :=
  Inline name.toList

/-- The text has neither parentheses nor line feeds. -/
def isPlain (s : String) : Bool :=
  s.toList.all fun c => c != '(' && c != ')' && c != '\n'

theorem Balanced.append {cs ds : List Char} (first : Balanced cs) (second : Balanced ds) :
    Balanced (cs ++ ds) := by
  induction first with
  | nil => exact second
  | cons opens closes _ ih => exact .cons opens closes ih
  | nested inside _ _ ih =>
    rw [List.cons_append, List.append_assoc, List.cons_append]
    exact .nested inside ih

namespace Inline

variable {cs ds : List Char}

theorem nil : Inline [] :=
  ⟨.nil, nofun⟩

theorem append (first : Inline cs) (second : Inline ds) : Inline (cs ++ ds) := by
  refine ⟨first.balanced.append second.balanced, ?_⟩
  rw [List.mem_append]
  rintro (here | here)
  · exact first.line here
  · exact second.line here

theorem parenthesised (inside : Inline cs) : Inline ('(' :: (cs ++ [')'])) := by
  refine ⟨.nested inside.balanced .nil, ?_⟩
  simpa using inside.line

theorem of_forall (plain : ∀ c ∈ cs, c ≠ '(' ∧ c ≠ ')' ∧ c ≠ '\n') : Inline cs := by
  induction cs with
  | nil => exact nil
  | cons c cs ih =>
    obtain ⟨⟨opens, closes, feed⟩, more⟩ := List.forall_mem_cons.mp plain
    obtain ⟨balanced, line⟩ := ih more
    exact ⟨.cons opens closes balanced, by simpa using ⟨feed.symm, line⟩⟩

theorem of_isPlain {s : String} (plain : isPlain s = true) : Inline s.toList := by
  refine of_forall ?_
  simpa [isPlain, and_assoc] using plain

/-- Texts with a space between neighbours. -/
theorem intercalate {ss : List String} (all : ∀ s ∈ ss, Inline s.toList) :
    Inline (String.intercalate " " ss).toList := by
  have space : Inline " ".toList := of_isPlain (by decide)
  induction ss with
  | nil => exact nil
  | cons s ss ih =>
    obtain ⟨here, more⟩ := List.forall_mem_cons.mp all
    cases ss with
    | nil => simpa using here
    | cons t ts =>
      rw [String.intercalate_cons_cons, String.toList_append, String.toList_append]
      exact append (append here space) (ih more)

end Inline

end Text

open Text (InlineName isPlain)

/-! ## Expressions -/

namespace SExpr

/-- The written form can stand in a line. -/
def Inline (e : SExpr) : Prop :=
  Text.Inline e.text.toList

theorem texts_eq_map (es : List SExpr) : texts es = es.map text := by
  induction es with
  | nil => rfl
  | cons e es ih => rw [texts, ih, List.map_cons]

theorem inline_atom {name : String} (inline : Text.Inline name.toList) : (atom name).Inline := by
  rw [Inline, text]
  exact inline

/-- What stands between the parentheses of a list. -/
theorem inline_items {items : List SExpr} (all : ∀ e ∈ items, e.Inline) :
    Text.Inline (String.intercalate " " (texts items)).toList := by
  rw [texts_eq_map]
  refine .intercalate ?_
  rw [List.forall_mem_map]
  exact all

theorem inline_list {items : List SExpr} (all : ∀ e ∈ items, e.Inline) : (list items).Inline := by
  rw [Inline, text, String.toList_append, String.toList_append]
  exact (inline_items all).parenthesised

theorem inline_call {head : SExpr} {args : List SExpr} (first : head.Inline)
    (all : ∀ e ∈ args, e.Inline) : (call head args).Inline :=
  inline_list (List.forall_mem_cons.mpr ⟨first, all⟩)

theorem inline_typed {name sort : SExpr} (first : name.Inline) (second : sort.Inline) :
    (typed name sort).Inline := by
  rw [Inline, text, String.toList_append, String.toList_append]
  have colons : Text.Inline "::".toList := .of_isPlain (by decide)
  exact (first.append colons).append second

end SExpr

/-! ## Dialects of plain words -/

namespace Dialect

/-- The words of the dialect have neither parentheses nor line feeds, and no literal is
written but numerals. -/
structure Plain (d : Dialect) : Prop where
  left : ∀ p ∈ d.leftAssociative, isPlain p.2 = true
  functions : ∀ p ∈ d.functionNames, isPlain p.2 = true
  sorts : ∀ p ∈ d.sortNames, isPlain p.2 = true
  words : ∀ w ∈ [d.notEqual, d.conjunction, d.zero, d.boolSort], isPlain w = true
  literals : d.literals = false

theorem plain_yices : yices.Plain where
  left := by decide
  functions := by decide
  sorts := by decide
  words := by decide
  literals := rfl

theorem inline_plain {word : String} (plain : isPlain word = true) : (SExpr.atom word).Inline :=
  SExpr.inline_atom (.of_isPlain plain)

/-- A word that is looked up is plain when all of them are. -/
theorem inline_of_lookup {table : List (String × String)} {key word : String}
    (all : ∀ p ∈ table, isPlain p.2 = true) (found : table.lookup key = some word) :
    (SExpr.atom word).Inline := by
  obtain ⟨front, behind, rfl, -⟩ := List.lookup_eq_some_iff.mp found
  exact inline_plain (all (key, word) (by simp))

/-! ### Applications -/

theorem inline_foldl {operator e : SExpr} {args : List SExpr} (first : operator.Inline)
    (here : e.Inline) (all : ∀ a ∈ args, a.Inline) :
    (args.foldl (fun acc a => .call operator [acc, a]) e).Inline := by
  induction args generalizing e with
  | nil => exact here
  | cons a as ih =>
    obtain ⟨next, more⟩ := List.forall_mem_cons.mp all
    have both : (SExpr.call operator [e, a]).Inline :=
      SExpr.inline_call first (by simp [here, next])
    exact ih both more

theorem inline_foldLeft {operator : SExpr} {args : List SExpr} (first : operator.Inline)
    (all : ∀ e ∈ args, e.Inline) : (foldLeft operator args).Inline := by
  cases args with
  | nil => exact SExpr.inline_list nofun
  | cons e es =>
    obtain ⟨here, more⟩ := List.forall_mem_cons.mp all
    exact inline_foldl first here more

theorem inline_foldRight {operator : SExpr} {args : List SExpr} (first : operator.Inline)
    (all : ∀ e ∈ args, e.Inline) : (foldRight operator args).Inline := by
  induction args with
  | nil => exact SExpr.inline_list nofun
  | cons e es ih =>
    obtain ⟨here, more⟩ := List.forall_mem_cons.mp all
    cases es with
    | nil => exact here
    | cons a as => exact SExpr.inline_call first (by simp [here, ih more])

variable {d : Dialect}

section

variable (plain : d.Plain)

include plain

theorem inline_conjoin {es : List SExpr} (all : ∀ e ∈ es, e.Inline) : (d.conjoin es).Inline := by
  have word : (SExpr.atom d.conjunction).Inline := inline_plain (plain.words _ (by simp))
  unfold conjoin
  split
  · exact all _ (by simp)
  · exact SExpr.inline_call word all

theorem inline_conjoinPairs {operator : SExpr} {ps : List (SExpr × SExpr)}
    (first : operator.Inline) (all : ∀ p ∈ ps, p.1.Inline ∧ p.2.Inline) :
    (d.conjoinPairs operator ps).Inline := by
  refine inline_conjoin plain ?_
  rw [List.forall_mem_map]
  rintro ⟨a, b⟩ is
  obtain ⟨here, there⟩ := all _ is
  exact SExpr.inline_call first (by simp [here, there])

/-- **An application of inline parts is inline**, whatever the class of its operator. -/
theorem inline_combine {head : SExpr} {args : List SExpr} (first : head.Inline)
    (all : ∀ e ∈ args, e.Inline) : (d.combine head args).Inline := by
  have neighbours : ∀ p ∈ neighbours args, p.1.Inline ∧ p.2.Inline := by
    rintro ⟨a, b⟩ is
    obtain ⟨here, there⟩ := Term.mem_of_mem_neighbours is
    exact ⟨all a here, all b there⟩
  have pairs : ∀ p ∈ pairs args, p.1.Inline ∧ p.2.Inline := by
    rintro ⟨a, b⟩ is
    obtain ⟨here, there⟩ := Term.mem_of_mem_pairs is
    exact ⟨all a here, all b there⟩
  have notEqual : (SExpr.atom d.notEqual).Inline := inline_plain (plain.words _ (by simp))
  have zero : (SExpr.atom d.zero).Inline := inline_plain (plain.words _ (by simp))
  unfold combine
  dsimp only
  split
  · exact SExpr.inline_call first all
  split
  · exact inline_conjoinPairs plain first neighbours
  split
  · next target found => exact inline_foldLeft (inline_of_lookup plain.left found) all
  split
  · exact inline_foldRight first all
  split
  · exact inline_conjoinPairs plain notEqual pairs
  split
  · exact SExpr.inline_call first (List.forall_mem_cons.mpr ⟨zero, all⟩)
  split
  · next target found => exact SExpr.inline_call (inline_of_lookup plain.functions found) all
  · exact SExpr.inline_call first all

/-! ### Sorts and terms -/

theorem inline_sortAtom {name : String} (inline : InlineName name) : (d.sortAtom name).Inline := by
  unfold sortAtom
  split
  · exact inline_plain (plain.words _ (by simp))
  · cases found : d.sortNames.lookup name with
    | none => exact SExpr.inline_atom inline
    | some word => exact inline_of_lookup plain.sorts found

end

mutual

theorem spellSort_inline (plain : d.Plain) : (s : SmtSort) → s.NamesAre InlineName → {e : SExpr} →
    d.spellSort s = .ok e → e.Inline
  | .bool _, _, e, spelled => by
    cases spelled
    exact inline_plain (plain.words _ (by simp))
  | .family name args indices _, named, e, spelled => by
    rw [spellSort] at spelled
    split at spelled
    · cases spelled
      exact inline_sortAtom plain named.1
    · cases spelled
  | .function args result _, named, e, spelled => by
    rw [spellSort] at spelled
    split at spelled
    · obtain ⟨as, args_spelled, spelled⟩ := bind_eq_ok.mp spelled
      obtain ⟨r, result_spelled, same⟩ := bind_eq_ok.mp spelled
      cases same
      have arrow : (SExpr.atom "->").Inline := inline_plain (by decide)
      have all := spellSorts_inline plain args named.1 args_spelled
      have last := spellSort_inline plain result named.2 result_spelled
      refine SExpr.inline_call arrow ?_
      rw [List.forall_mem_append]
      exact ⟨all, by simpa using last⟩
    · cases spelled
  | .abbreviation _ _ _ _, _, _, spelled => by cases spelled
  | .parameter _ _, _, _, spelled => by cases spelled

theorem spellSorts_inline (plain : d.Plain) : (ss : List SmtSort) →
    SmtSort.NamesAreAll InlineName ss → {es : List SExpr} → d.spellSorts ss = .ok es →
    ∀ e ∈ es, e.Inline
  | [], _, _, spelled => by
    cases spelled
    exact nofun
  | s :: ss, named, _, spelled => by
    obtain ⟨e, first, spelled⟩ := bind_eq_ok.mp spelled
    obtain ⟨es, rest, same⟩ := bind_eq_ok.mp spelled
    cases same
    have here := spellSort_inline plain s named.1 first
    have more := spellSorts_inline plain ss named.2 rest
    exact List.forall_mem_cons.mpr ⟨here, more⟩

end

theorem spellDeclarations_inline (plain : d.Plain) {decls : List Declaration} {es : List SExpr}
    (named : ∀ decl ∈ decls, decl.NamesAre InlineName)
    (spelled : d.spellDeclarations decls = .ok es) : ∀ e ∈ es, e.Inline := by
  induction decls generalizing es with
  | nil =>
    cases spelled
    exact nofun
  | cons decl decls ih =>
    obtain ⟨e, first, spelled⟩ := bind_eq_ok.mp spelled
    obtain ⟨es, rest, same⟩ := bind_eq_ok.mp spelled
    obtain ⟨sort, sort_spelled, typed⟩ := bind_eq_ok.mp first
    cases same
    cases typed
    obtain ⟨⟨name, sort_named⟩, more⟩ := List.forall_mem_cons.mp named
    have here := SExpr.inline_typed (SExpr.inline_atom name)
      (spellSort_inline plain decl.sort sort_named sort_spelled)
    exact List.forall_mem_cons.mpr ⟨here, ih more rest⟩

/-- The digits of a number are plain. -/
theorem inline_int (value : Int) : (SExpr.atom (toString value)).Inline := by
  have digits (n : Nat) : Text.Inline (toString n).toList := by
    refine .of_forall fun c is => ?_
    have digit := Nat.isDigit_of_mem_toDigits (by decide) (by decide) (Nat.toList_repr ▸ is)
    refine ⟨?_, ?_, ?_⟩ <;> rintro rfl <;> cases digit
  have minus : Text.Inline "-".toList := .of_isPlain (by decide)
  refine SExpr.inline_atom ?_
  cases value with
  | ofNat n => exact digits n
  | negSucc n =>
    have written : toString (Int.negSucc n) = "-" ++ toString (n + 1) := rfl
    rw [written, String.toList_append]
    exact minus.append (digits (n + 1))

theorem inline_quantifier (q : Quantifier) : (SExpr.atom q.word).Inline := by
  cases q with
  | universal => exact inline_plain (by decide)
  | existential => exact inline_plain (by decide)

theorem inline_literal (plain : d.Plain) {text : String} {cause : Cause} {pos : Option Pos}
    {e : SExpr} (spelled : d.literal text cause pos = .ok e) : e.Inline := by
  rw [literal, plain.literals] at spelled
  cases spelled

mutual

/-- **What is spelled of inline names is inline.** -/
theorem spell_inline (plain : d.Plain) : (t : Term) → t.NamesAre InlineName → {e : SExpr} →
    d.spell t = .ok e → e.Inline
  | .numeral value _, _, _, spelled => by
    cases spelled
    exact inline_int value
  | .decimal _ _, _, _, spelled => inline_literal plain spelled
  | .hex _ _, _, _, spelled => inline_literal plain spelled
  | .binary _ _, _, _, spelled => inline_literal plain spelled
  | .string _ _, _, _, spelled => inline_literal plain spelled
  | .symbol s, named, _, spelled => by
    cases spelled
    exact SExpr.inline_atom named
  | .apply head args _, named, _, spelled => by
    rw [spell] at spelled
    split at spelled
    · cases spelled
    · obtain ⟨name, head_spelled, spelled⟩ := bind_eq_ok.mp spelled
      split at spelled
      · cases spelled
      · obtain ⟨es, args_spelled, same⟩ := bind_eq_ok.mp spelled
        cases same
        have first := spell_inline plain head named.1 head_spelled
        have all := spellAll_inline plain args named.2 args_spelled
        exact inline_combine plain first all
  | .quantified q parameters body _, named, _, spelled => by
    obtain ⟨decls, decls_spelled, spelled⟩ := bind_eq_ok.mp spelled
    obtain ⟨inner, body_spelled, same⟩ := bind_eq_ok.mp spelled
    cases same
    have listed := SExpr.inline_list (spellDeclarations_inline plain named.1 decls_spelled)
    have inside := spell_inline plain body named.2 body_spelled
    exact SExpr.inline_list (by simp [inline_quantifier, listed, inside])
  | .letIn bindings body _, named, _, spelled => by
    obtain ⟨es, bindings_spelled, spelled⟩ := bind_eq_ok.mp spelled
    obtain ⟨inner, body_spelled, same⟩ := bind_eq_ok.mp spelled
    cases same
    have word : (SExpr.atom "let").Inline := inline_plain (by decide)
    have bound := SExpr.inline_list (spellBindings_inline plain bindings named.1 bindings_spelled)
    have inside := spell_inline plain body named.2 body_spelled
    exact SExpr.inline_list (by simp [word, bound, inside])
  | .attributed term _ _, named, _, spelled => spell_inline plain term named spelled
  | .sort s, named, _, spelled => spellSort_inline plain s named spelled
  | .keyword _, _, _, spelled => by cases spelled
  | .qualified _ _ _, _, _, spelled => by cases spelled
  | .indexed _ _ _, _, _, spelled => by cases spelled
  | .error _ _, _, _, spelled => by cases spelled
  | .declaration _, _, _, spelled => by cases spelled
  | .binding _, _, _, spelled => by cases spelled
  | .attr _, _, _, spelled => by cases spelled

theorem spellAll_inline (plain : d.Plain) : (ts : List Term) →
    Term.NamesAreAll InlineName ts → {es : List SExpr} → d.spellAll ts = .ok es → ∀ e ∈ es, e.Inline
  | [], _, _, spelled => by
    cases spelled
    exact nofun
  | t :: ts, named, _, spelled => by
    obtain ⟨e, first, spelled⟩ := bind_eq_ok.mp spelled
    obtain ⟨es, rest, same⟩ := bind_eq_ok.mp spelled
    cases same
    have here := spell_inline plain t named.1 first
    have more := spellAll_inline plain ts named.2 rest
    exact List.forall_mem_cons.mpr ⟨here, more⟩

theorem spellBindings_inline (plain : d.Plain) : (bs : List Binding) →
    Binding.NamesAreAll InlineName bs → {es : List SExpr} → d.spellBindings bs = .ok es →
    ∀ e ∈ es, e.Inline
  | [], _, _, spelled => by
    cases spelled
    exact nofun
  | .mk s t :: bs, named, _, spelled => by
    obtain ⟨e, first, spelled⟩ := bind_eq_ok.mp spelled
    obtain ⟨es, rest, same⟩ := bind_eq_ok.mp spelled
    cases same
    obtain ⟨⟨name, bound⟩, more_named⟩ := named
    have term := spell_inline plain t bound first
    have here : (SExpr.call (.atom s.name) [e]).Inline :=
      SExpr.inline_call (SExpr.inline_atom name) (by simp [term])
    have more := spellBindings_inline plain bs more_named rest
    exact List.forall_mem_cons.mpr ⟨here, more⟩

end

end Dialect

/-! ## Wires -/

namespace Backend

/-- The wire is one parenthesised expression, on a line of its own. -/
def Framed (wire : String) : Prop :=
  ∃ body, wire.toList = '(' :: (body ++ [')', '\n']) ∧ Text.Balanced body ∧ '\n' ∉ body

/-- A framed wire is one line. -/
theorem Framed.count_feeds {wire : String} (framed : Framed wire) : wire.toList.count '\n' = 1 := by
  obtain ⟨body, chars, -, line⟩ := framed
  rw [chars, List.count_cons_of_ne (by decide), List.count_append, List.count_eq_zero.mpr line]
  rfl

theorem framed_line {items : List SExpr} (all : ∀ e ∈ items, e.Inline) :
    Framed (line (.list items)) := by
  obtain ⟨balanced, feed⟩ := SExpr.inline_items all
  exact ⟨_, by simp [line, SExpr.text], balanced, feed⟩

theorem framed_call {name : String} {args : List SExpr} (plain : isPlain name = true)
    (all : ∀ e ∈ args, e.Inline) : Framed (line (.call (.atom name) args)) :=
  framed_line (List.forall_mem_cons.mpr ⟨Dialect.inline_plain plain, all⟩)

theorem framed_word {name : String} (plain : isPlain name = true) : Framed (word name) :=
  framed_call plain nofun

variable {b : Backend} (plain : b.dialect.Plain) {wire : String}

include plain

theorem assertWire_framed {t : Term} (named : t.NamesAre InlineName)
    (spelled : b.assertWire t = .ok wire) : Framed wire := by
  obtain ⟨e, term, rfl⟩ := (b.assertWire_eq_ok).mp spelled
  have inline := Dialect.spell_inline plain t named term
  exact framed_call (by decide) (by simp [inline])

theorem valueWire_framed {ts : List Term} (named : ∀ t ∈ ts, t.NamesAre InlineName)
    (spelled : b.valueWire ts = .ok wire) : Framed wire := by
  obtain ⟨es, terms, same⟩ := Dialect.bind_eq_ok.mp spelled
  cases same
  have inline := Dialect.spellAll_inline plain ts (Term.namesAreAll_iff.mpr named) terms
  exact framed_call (by decide) inline

theorem signature_inline {args : List SmtSort} {result : SmtSort} {e : SExpr}
    (args_named : ∀ s ∈ args, s.NamesAre InlineName) (result_named : result.NamesAre InlineName)
    (spelled : b.signature args result = .ok e) : e.Inline := by
  unfold signature at spelled
  split at spelled
  · exact Dialect.spellSort_inline plain result result_named spelled
  · obtain ⟨as, args_spelled, spelled⟩ := Dialect.bind_eq_ok.mp spelled
    obtain ⟨r, result_spelled, same⟩ := Dialect.bind_eq_ok.mp spelled
    cases same
    have all :=
      Dialect.spellSorts_inline plain args (SmtSort.namesAreAll_iff.mpr args_named) args_spelled
    have last := Dialect.spellSort_inline plain result result_named result_spelled
    refine SExpr.inline_call (Dialect.inline_plain (by decide)) ?_
    rw [List.forall_mem_append]
    exact ⟨all, by simpa using last⟩

theorem declareWire_framed {name : Symbol} {args : List SmtSort} {result : SmtSort}
    (named : InlineName name.name) (args_named : ∀ s ∈ args, s.NamesAre InlineName)
    (result_named : result.NamesAre InlineName)
    (spelled : b.declareWire name args result = .ok wire) : Framed wire := by
  obtain ⟨sort, sort_spelled, same⟩ := Dialect.bind_eq_ok.mp spelled
  cases same
  have inline := signature_inline plain args_named result_named sort_spelled
  have typed := SExpr.inline_typed (SExpr.inline_atom named) inline
  exact framed_call (by decide) (by simp [typed])

theorem defineWire_framed {name : Symbol} {parameters : List Declaration} {result : SmtSort}
    {body : Term} (named : InlineName name.name)
    (parameters_named : ∀ d ∈ parameters, d.NamesAre InlineName)
    (result_named : result.NamesAre InlineName) (body_named : body.NamesAre InlineName)
    (spelled : b.defineWire name parameters result body = .ok wire) : Framed wire := by
  obtain ⟨value, body_spelled, spelled⟩ := Dialect.bind_eq_ok.mp spelled
  obtain ⟨sort, sort_spelled, spelled⟩ := Dialect.bind_eq_ok.mp spelled
  have inside := Dialect.spell_inline plain body body_named body_spelled
  have sorts_named : ∀ s ∈ parameters.map Declaration.sort, s.NamesAre InlineName := by
    rw [List.forall_mem_map]
    exact fun d is => (parameters_named d is).2
  have inline := signature_inline plain sorts_named result_named sort_spelled
  have typed := SExpr.inline_typed (SExpr.inline_atom named) inline
  split at spelled
  · cases spelled
    exact framed_call (by decide) (by simp [typed, inside])
  · obtain ⟨decls, decls_spelled, same⟩ := Dialect.bind_eq_ok.mp spelled
    cases same
    have listed :=
      SExpr.inline_list (Dialect.spellDeclarations_inline plain parameters_named decls_spelled)
    have word : (SExpr.atom "lambda").Inline := Dialect.inline_plain (by decide)
    have function : (SExpr.call (.atom "lambda") [.list decls, value]).Inline :=
      SExpr.inline_call word (by simp [listed, inside])
    exact framed_call (by decide) (by simp [typed, function])

omit plain in
theorem declareSortWire_framed {name : Symbol} {arity : Int} (named : InlineName name.name)
    (spelled : b.declareSortWire name arity = .ok wire) : Framed wire := by
  unfold declareSortWire at spelled
  split at spelled
  · cases spelled
    exact framed_call (by decide) (by simp [SExpr.inline_atom named])
  · cases spelled

theorem defineSortWire_framed {name : Symbol} {parameters : List String} {definition : SmtSort}
    (named : InlineName name.name) (definition_named : definition.NamesAre InlineName)
    (spelled : b.defineSortWire name parameters definition = .ok wire) : Framed wire := by
  unfold defineSortWire at spelled
  split at spelled
  · obtain ⟨sort, sort_spelled, same⟩ := Dialect.bind_eq_ok.mp spelled
    cases same
    have inline := Dialect.spellSort_inline plain definition definition_named sort_spelled
    exact framed_call (by decide) (by simp [SExpr.inline_atom named, inline])
  · cases spelled

end Backend

end SmtSession
