import Mathlib.Data.List.Forall2
import SmtSession.Proofs.Dialect.NormalForm
import SmtSession.Proofs.Dialect.Positions
import SmtSession.Proofs.Reader.Commands
import SmtSession.Proofs.Reader.Whole
import SmtSession.Proofs.Reader.Writing

/-!
# What the input language's own dialect writes is read back

**A legible term** is built of literals, of symbols that are written as their names alone, of
applications of these, of let-terms and of annotations. When the dialect of the input language
renders one, the text is read as the desugared term, and that is rendered as the same text.

An expression spells lexemes when its text does, in front of whatever may follow an expression
(`SExpr.Spells`); an atom spells itself, a list what its items spell. `Term.Transcribed` says
of a term that what the dialect writes spells the lexemes of that term. Direct applications
inherit it from their arguments, so it is true of what a legible term is desugared to.
-/

namespace SmtSession

open Lexeme (ofName ofNumber)

/-! ## Texts of expressions -/

/-- Characters behind one part and a gap, in front of what may follow another part. -/
theorem Written.append {behind : List Char} {ls ls' : List Lexeme} {here gap later : List Char}
    (first : Written (gap ++ (later ++ behind)) ls here) (is : Gap gap (later ++ behind))
    (next : Written behind ls' later) : Written behind (ls ++ ls') (here ++ (gap ++ later)) := by
  induction first with
  | last writable ends => exact .lexeme writable ends is next
  | @lexeme l ls inner written writable ends inner_is _ ih =>
    have ends : l.Ends (inner ++ (written ++ (gap ++ later) ++ behind)) := by simpa using ends
    have inner_is : Gap inner (written ++ (gap ++ later) ++ behind) := by simpa using inner_is
    simpa using Written.lexeme writable ends inner_is ih

namespace SExpr

/-- What may stand behind an expression: nothing, a space or a closing parenthesis. -/
def Stops (behind : List Char) : Prop :=
  ∀ c, behind.head? = some c → c = ' ' ∨ c = ')'

theorem stops_space (behind : List Char) : Stops (' ' :: behind) :=
  fun _ is => .inl (Option.some.inj is).symm

theorem stops_closing (behind : List Char) : Stops (')' :: behind) :=
  fun _ is => .inr (Option.some.inj is).symm

/-- Every lexeme ends there. -/
theorem Stops.ends {behind : List Char} (stops : Stops behind) (l : Lexeme) : l.Ends behind := by
  cases behind with
  | nil =>
    cases l with
    | string => nofun
    | _ => trivial
  | cons c behind =>
    have delimiter : Token.isDelimiter c = true ∧ c ≠ '"' := by
      rcases stops c rfl with rfl | rfl <;> decide
    cases l with
    | plain => exact .inl delimiter.1
    | string => exact fun quote => delimiter.2 (Option.some.inj quote)
    | _ => trivial

/-- **The text of an expression spells lexemes** in front of whatever may stand behind it. -/
def Spells (e : SExpr) (ls : List Lexeme) : Prop :=
  ∀ behind, Stops behind → Written behind ls e.text.toList

/-- An atom spells one lexeme. -/
theorem spells_atom {l : Lexeme} {text : String} (writable : l.Writable)
    (chars : l.chars = text.toList) : (SExpr.atom text).Spells [l] := by
  intro behind stops
  show Written behind [l] text.toList
  rw [← chars]
  exact .last writable (stops.ends l)

/-- Items with a space between neighbours spell what they do one behind the other. -/
theorem written_items {es : List SExpr} {lss : List (List Lexeme)} (some : es ≠ [])
    (each : List.Forall₂ Spells es lss) {behind : List Char} (stops : Stops behind) :
    Written behind lss.flatten (String.intercalate " " (texts es)).toList := by
  induction each with
  | nil => exact absurd rfl some
  | @cons e ls es lss here later ih =>
    cases later with
    | nil => simpa [texts] using here behind stops
    | @cons f ls' es lss next more =>
      have rest := ih (List.cons_ne_nil _ _)
      have first := here (' ' :: ((String.intercalate " " (texts (f :: es))).toList ++ behind))
        (stops_space _)
      rw [texts, texts, String.intercalate_cons_cons, ← texts, String.append_assoc,
        String.toList_append, String.toList_append]
      have blank : Gap [' '] ((String.intercalate " " (texts (f :: es))).toList ++ behind) :=
        .layout rfl .none
      exact Written.append first blank rest

/-- A list spells parentheses around what its items spell. -/
theorem spells_list {es : List SExpr} {lss : List (List Lexeme)}
    (each : List.Forall₂ Spells es lss) : (SExpr.list es).Spells (parenthesised lss.flatten) := by
  intro behind stops
  have chars : (SExpr.list es).text.toList =
      '(' :: ((String.intercalate " " (texts es)).toList ++ [')']) := by
    rw [text, String.toList_append, String.toList_append]
    rfl
  have last : Written behind [.closing] [')'] := .last (l := .closing) trivial trivial
  have closed : Written behind (lss.flatten ++ [.closing])
      ((String.intercalate " " (texts es)).toList ++ ([] ++ [')'])) := by
    cases es with
    | nil =>
      cases each
      exact last
    | cons e es =>
      have items := written_items (List.cons_ne_nil e es) each (stops_closing behind)
      exact items.append .none last
  rw [chars, parenthesised]
  have whole : Written behind (.opening :: (lss.flatten ++ [.closing]))
      (Lexeme.opening.chars ++
        ([] ++ ((String.intercalate " " (texts es)).toList ++ ([] ++ [')'])))) :=
    .lexeme trivial trivial .none closed
  exact whole

/-- The same where the lexemes are put together in another way. -/
theorem spells_list_of_eq {es : List SExpr} {lss : List (List Lexeme)} {ls : List Lexeme}
    (each : List.Forall₂ Spells es lss) (same : lss.flatten = ls) :
    (SExpr.list es).Spells (parenthesised ls) :=
  same ▸ spells_list each

end SExpr

/-! ## Legible terms -/

/-- A name that is a symbol as it is written: it has the text of an atom, the class of a
symbol, and is no reserved word. -/
structure IsPlainName (name : String) : Prop where
  atom : Lexeme.IsAtomText name.toList
  symbol : AtomClass.ofChars name.toList = .symbol
  free : name ∉ Reader.reservedWords

namespace Term

mutual

/-- The term is built of literals that can be written, plain names, applications of these, lets
that bind something, and annotations. -/
def Legible : Term → Prop
  | .numeral value _ => 0 ≤ value
  | .decimal text _ => AtomClass.isDecimal text.toList = true
  | .hex digits _ => digits.toList ≠ [] ∧ ∀ c ∈ digits.toList, AtomClass.isHexDigit c = true
  | .binary digits _ => digits.toList ≠ [] ∧ ∀ c ∈ digits.toList, c = '0' ∨ c = '1'
  | .string _ _ => True
  | .symbol s => IsPlainName s.name
  | .apply head args _ => (∃ s, head = .symbol s ∧ IsPlainName s.name) ∧ LegibleAll args
  | .letIn bindings body _ => bindings ≠ [] ∧ LegibleBindings bindings ∧ Legible body
  | .attributed term _ _ => Legible term
  | _ => False

/-- All of the terms are legible. -/
def LegibleAll : List Term → Prop
  | [] => True
  | t :: ts => Legible t ∧ LegibleAll ts

/-- All of the bound terms are legible, and the names they are bound to are plain. -/
def LegibleBindings : List Binding → Prop
  | [] => True
  | .mk s t :: bs => IsPlainName s.name ∧ Legible t ∧ LegibleBindings bs

end

mutual

theorem Legible.proper : (t : Term) → t.Legible → t.Proper
  | .apply _ args _, ⟨⟨_, is, _⟩, legible⟩ => by
    subst is
    exact ⟨trivial, LegibleAll.proper args legible⟩
  | .letIn bindings body _, ⟨_, bound, legible⟩ =>
    ⟨LegibleBindings.proper bindings bound, Legible.proper body legible⟩
  | .attributed term _ _, legible => Legible.proper term legible
  | .numeral _ _, _ | .decimal _ _, _ | .hex _ _, _ | .binary _ _, _ | .string _ _, _
  | .symbol _, _ => trivial

theorem LegibleAll.proper : (ts : List Term) → LegibleAll ts → ProperAll ts
  | [], _ => trivial
  | t :: ts, ⟨here, later⟩ => ⟨Legible.proper t here, LegibleAll.proper ts later⟩

theorem LegibleBindings.proper : (bs : List Binding) → LegibleBindings bs → ProperBindings bs
  | [], _ => trivial
  | .mk _ t :: bs, ⟨_, here, later⟩ => ⟨Legible.proper t here, LegibleBindings.proper bs later⟩

end

/-! ## Written as it is spelled -/

/-- **What is written of the term is its lexemes**, and the term has a shape that can be read. -/
structure Transcribed (t : Term) : Prop where
  shaped : t.Shaped
  spells : (Dialect.smtLib.write t).Spells t.lexemes

/-- A plain name is written as it is. -/
theorem spells_name {name : String} (plain : IsPlainName name) :
    (SExpr.atom name).Spells [ofName name] := by
  have same : ofName name = .plain name := if_pos ⟨plain.atom, plain.symbol, plain.free⟩
  rw [same]
  exact SExpr.spells_atom plain.atom rfl

/-- A literal is written as its text, which is one lexeme. -/
theorem spells_literal {t : Term} {text : String} (shaped : t.Shaped)
    (lexemes : t.lexemes = [.plain text]) : (SExpr.atom text).Spells t.lexemes := by
  have writable := (written_of_shaped t shaped).2
  rw [lexemes] at writable ⊢
  exact SExpr.spells_atom (writable _ (List.mem_singleton_self _)) rfl

theorem allTranscribed {ts : List Term} (all : ∀ t ∈ ts, t.Transcribed) :
    AllShaped ts ∧ ∃ lss : List (List Lexeme), lss.flatten = allLexemes ts ∧
      List.Forall₂ SExpr.Spells (ts.map Dialect.smtLib.write) lss := by
  induction ts with
  | nil => exact ⟨trivial, [], rfl, .nil⟩
  | cons t ts ih =>
    obtain ⟨first, more⟩ := List.forall_mem_cons.mp all
    obtain ⟨shaped, lss, flat, each⟩ := ih more
    exact ⟨⟨first.shaped, shaped⟩, t.lexemes :: lss, congrArg (t.lexemes ++ ·) flat,
      .cons first.spells each⟩

/-- Applications of plain names inherit it from their arguments. -/
theorem transcribed_apply {s : Symbol} {args : List Term} {pos : Option Pos}
    (plain : IsPlainName s.name) (all : ∀ a ∈ args, a.Transcribed) :
    (apply (.symbol s) args pos).Transcribed := by
  obtain ⟨shaped, lss, flat, each⟩ := allTranscribed all
  refine ⟨⟨trivial, trivial, shaped⟩, ?_⟩
  rw [Dialect.write_apply]
  exact SExpr.spells_list_of_eq (.cons (spells_name plain) each)
    (congrArg (ofName s.name :: ·) flat)

theorem transcribed_arrange {s : Symbol} {args : List Term} {pos : Option Pos}
    (plain : IsPlainName s.name) (enough : EnoughFor s.name args.length)
    (all : ∀ a ∈ args, a.Transcribed) : (arrange s args pos).Transcribed := by
  have names : ∀ name ∈ [s.name, "and", "/="], IsPlainName name :=
    List.forall_mem_cons.mpr ⟨plain, List.forall_mem_cons.mpr ⟨⟨by decide, by decide, by decide⟩,
      List.forall_mem_singleton.mpr ⟨by decide, by decide, by decide⟩⟩⟩
  refine arrange_closed (fun r as pos is _ all => transcribed_apply (names _ is) all) ?_ enough all
  exact ⟨Int.le_refl 0, spells_literal (t := .numeral 0 none) (Int.le_refl 0) rfl⟩

mutual

/-- **A legible term is transcribed** once it is desugared. -/
theorem transcribed_desugar : (t : Term) → t.Legible → t.Admitted → t.desugar.Transcribed
  | .numeral value pos, legible, _ =>
    ⟨legible, spells_literal (t := .numeral value pos) legible rfl⟩
  | .decimal text pos, legible, _ =>
    ⟨legible, spells_literal (t := .decimal text pos) legible rfl⟩
  | .hex digits pos, legible, _ => ⟨legible, spells_literal (t := .hex digits pos) legible rfl⟩
  | .binary digits pos, legible, _ =>
    ⟨legible, spells_literal (t := .binary digits pos) legible rfl⟩
  | .string content _, _, _ =>
    ⟨trivial, SExpr.spells_atom (l := .string content) trivial (String.toList_ofList ..).symm⟩
  | .symbol _, legible, _ => ⟨trivial, spells_name legible⟩
  | .apply _ args pos, ⟨⟨_, is, plain⟩, legible⟩, ⟨⟨_, is', enough⟩, admitted⟩ => by
    subst is
    cases is'
    exact transcribed_arrange plain (enough_desugarAll enough)
      (transcribed_desugarAll args legible admitted)
  | .letIn bindings body pos, ⟨front, bound, legible⟩, ⟨bound_admitted, admitted⟩ => by
    obtain ⟨shaped, lss, flat, each⟩ := transcribed_desugarBindings bindings bound bound_admitted
    have inner := transcribed_desugar body legible admitted
    have some : desugarBindings bindings ≠ [] := by
      match bindings, front with
      | .mk _ _ :: _, _ => nofun
    have word : (SExpr.atom "let").Spells [.plain "let"] :=
      SExpr.spells_atom (by decide : Lexeme.IsAtomText _) rfl
    refine ⟨⟨some, shaped, inner.shaped⟩, ?_⟩
    refine SExpr.spells_list_of_eq
      (.cons word (.cons (SExpr.spells_list_of_eq each flat) (.cons inner.spells .nil))) ?_
    simp
  | .attributed term _ _, legible, admitted => transcribed_desugar term legible admitted

theorem transcribed_desugarAll : (ts : List Term) → LegibleAll ts → AdmittedAll ts →
    ∀ u ∈ desugarAll ts, u.Transcribed
  | [], _, _ => nofun
  | t :: ts, ⟨here, later⟩, ⟨admitted, more⟩ => List.forall_mem_cons.mpr
    ⟨transcribed_desugar t here admitted, transcribed_desugarAll ts later more⟩

theorem transcribed_desugarBindings : (bs : List Binding) → LegibleBindings bs →
    AdmittedBindings bs → BindingsShaped (desugarBindings bs) ∧
      ∃ lss : List (List Lexeme), lss.flatten = bindingsLexemes (desugarBindings bs) ∧
        List.Forall₂ SExpr.Spells (Dialect.smtLib.writeBindings (desugarBindings bs)) lss
  | [], _, _ => ⟨trivial, [], rfl, .nil⟩
  | .mk s t :: bs, ⟨plain, here, later⟩, ⟨admitted, more⟩ => by
    have inner := transcribed_desugar t here admitted
    obtain ⟨shaped, lss, flat, each⟩ := transcribed_desugarBindings bs later more
    have bound : (SExpr.call (.atom s.name) [Dialect.smtLib.write t.desugar]).Spells
        (parenthesised (ofName s.name :: t.desugar.lexemes)) :=
      SExpr.spells_list_of_eq (.cons (spells_name plain) (.cons inner.spells .nil)) (by simp)
    exact ⟨⟨inner.shaped, shaped⟩, _ :: lss, congrArg (_ ++ ·) flat, .cons bound each⟩

end

/-- What is transcribed is read back from the text that is written of it. -/
theorem Transcribed.readBack {t : Term} (transcribed : t.Transcribed) (location : Option String) :
    ∃ r, readTerm ⟨(Dialect.smtLib.write t).text, location⟩ = .ok r ∧ r.bare = t.bare := by
  have written := transcribed.spells [] nofun
  have laid : Laid t.lexemes (Dialect.smtLib.write t).text.toList := written.laid_alone
  exact Reader.readAll_of_reads (Reader.nextTerm_reads (written_of_shaped t transcribed.shaped).1)
    laid location

end Term

/-- **What the dialect of the input language renders is read back** as the desugared term, apart
from positions, and that is rendered as the same text. -/
theorem Dialect.render_readBack {t : Term} {w : String} (legible : t.Legible)
    (rendered : smtLib.render t = .ok w) (location : Option String) :
    ∃ r, readTerm ⟨w, location⟩ = .ok r ∧ r.bare = t.desugar.bare ∧ smtLib.render r = .ok w := by
  obtain ⟨e, spelled, same⟩ := bind_eq_ok.mp rendered
  cases same
  have proper := Term.Legible.proper t legible
  obtain ⟨admitted, rfl⟩ := spell_eq_write smtLib_sharesOperators t proper spelled
  obtain ⟨r, read, bare⟩ := (Term.transcribed_desugar t legible admitted).readBack location
  have again := spell_of_bare bare (spell_desugar smtLib_sharesOperators t proper spelled)
  refine ⟨r, read, bare, ?_⟩
  rw [render, again]
  rfl

/-- A chain of comparisons under a let-term and an annotation, with a quote in a string. -/
theorem Dialect.render_readBack_chain :
    let x : Symbol := { name := "x" }
    let equals := Term.apply (.symbol { name := "=" })
      [.string "a\"" none, .symbol x, .attributed (.symbol x) [.mk { name := ":named" } none] none]
      none
    let t := Term.letIn [.mk x (.numeral 1 none)] equals none
    let w := "(let ((x 1)) (and (= \"a\"\"\" x) (= x x)))"
    (t.Legible ∧ smtLib.render t = .ok w) ∧
      ∃ r, readTerm ⟨w, none⟩ = .ok r ∧ r.bare = t.desugar.bare ∧ smtLib.render r = .ok w := by
  intro x equals t w
  have x_plain : IsPlainName x.name := ⟨by decide, by decide, by decide⟩
  have equals_plain : IsPlainName "=" := ⟨by decide, by decide, by decide⟩
  have legible : t.Legible :=
    ⟨nofun, ⟨x_plain, (by decide : (0 : Int) ≤ 1), trivial⟩, ⟨_, rfl, equals_plain⟩,
      trivial, x_plain, x_plain, trivial⟩
  have rendered : smtLib.render t = .ok w := rfl
  exact ⟨⟨legible, rendered⟩, render_readBack legible rendered none⟩

end SmtSession
