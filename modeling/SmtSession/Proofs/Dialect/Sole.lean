import Mathlib.Data.List.Induction
import SmtSession.Proofs.Dialect.PrintedValues
import SmtSession.Proofs.Reader.Digits

/-!
# Expressions that are printed as one atom

**Annotations are dropped, and some operators with one argument are that argument**: such an
expression is printed as what remains without them, its `Term.sole`. All other expressions that are
no atoms are printed between parentheses.

So an expression that is printed in digit characters alone remains an atom that bears them
(`numeral_or_bears`). Where it was read from a text and is no numeral, the atom is a symbol that
stands there between bars (`quoted_of_bears`), since the reader refuses such characters anywhere
else.
-/

namespace SmtSession

open Text (isDigitChar isDigits)

/-! ## What is printed between parentheses -/

theorem SExpr.not_isDigits_list (items : List SExpr) : ¬ isDigits (SExpr.list items).text = true :=
  Text.not_isDigits_of_mem (c := '(') (by simp [SExpr.text]) (by decide)

namespace Dialect

/-- A conjunction of pairs is a list. -/
theorem exists_conjoinPairs (d : Dialect) (operator : SExpr) {ps : List (SExpr × SExpr)}
    (some : ps ≠ []) : ∃ items, d.conjoinPairs operator ps = .list items := by
  match ps with
  | [p] => exact ⟨_, rfl⟩
  | p :: q :: ps => exact ⟨_, rfl⟩

/-- **An operator that has enough arguments gives a list**, unless it has one argument and is that. -/
theorem combine_listed (d : Dialect) {head : SExpr} {args : List SExpr} (some : args ≠ [])
    (enough : d.tooFew? head.text args.length = none) :
    (∃ items, d.combine head args = .list items) ∨ ∃ e, args = [e] ∧ d.combine head args = e := by
  obtain ⟨e, es, rfl⟩ := List.exists_cons_of_ne_nil some
  unfold tooFew? at enough
  unfold combine
  simp only
  -- the class of the operator, by the same tests as in `enough`
  split
  · exact .inl ⟨_, rfl⟩
  next kept =>
  rw [if_neg kept] at enough
  split
  · next chains =>
    rw [if_pos chains] at enough
    cases es with
    | nil => simp at enough
    | cons e' es => exact .inl (d.exists_conjoinPairs _ nofun)
  next chains =>
  rw [if_neg chains] at enough
  split
  · next folded =>
    cases es using List.reverseRecOn with
    | nil => exact .inr ⟨e, rfl, rfl⟩
    | append_singleton es last => exact .inl ⟨_, by rw [foldLeft, List.foldl_append]; rfl⟩
  next folded =>
  rw [folded] at enough
  split
  · cases es with
    | nil => exact .inr ⟨e, rfl, rfl⟩
    | cons e' es => exact .inl ⟨_, rfl⟩
  next nested =>
  rw [if_neg nofun, if_neg nested] at enough
  split
  · next distinct =>
    rw [if_pos distinct] at enough
    cases es with
    | nil => simp at enough
    | cons e' es => exact .inl (d.exists_conjoinPairs _ nofun)
  split
  · exact .inl ⟨_, rfl⟩
  split
  · exact .inl ⟨_, rfl⟩
  · exact .inl ⟨_, rfl⟩

/-- Several terms are spelled one by one. -/
theorem forall₂_of_spellAll {d : Dialect} {ts : List Term} {es : List SExpr}
    (spelled : d.spellAll ts = .ok es) : List.Forall₂ (fun t e => d.spell t = .ok e) ts es := by
  induction ts generalizing es with
  | nil =>
    cases spelled
    exact .nil
  | cons t ts ih =>
    obtain ⟨e, first, rest⟩ := bind_eq_ok.mp spelled
    obtain ⟨es, more, same⟩ := bind_eq_ok.mp rest
    cases same
    exact .cons first (ih more)

/-- **An application is printed between parentheses**, unless it has one argument and is printed as
that. -/
theorem spell_apply_listed {d : Dialect} {head : Term} {args : List Term} {pos : Option Pos}
    {e : SExpr} (spelled : d.spell (.apply head args pos) = .ok e) :
    (∃ items, e = .list items) ∨ ∃ t, args = [t] ∧ d.spell t = .ok e := by
  rw [spell] at spelled
  split at spelled
  · cases spelled
  next some =>
  obtain ⟨h, -, rest⟩ := bind_eq_ok.mp spelled
  split at rest
  · cases rest
  next enough =>
  obtain ⟨es, all, is⟩ := bind_eq_ok.mp rest
  obtain rfl := Except.ok.inj is
  have each := forall₂_of_spellAll all
  rw [each.length_eq] at enough
  have some_ : es ≠ [] := by
    rintro rfl
    cases each
    exact some rfl
  rcases d.combine_listed some_ enough with list | ⟨e, rfl, alone⟩
  · exact .inl list
  · obtain ⟨t, ts, here, none, rfl⟩ := List.forall₂_cons_right_iff.mp each
    cases none
    exact .inr ⟨t, rfl, by rw [alone]; exact here⟩

end Dialect

/-! ## What remains of an expression -/

namespace Term

/-- What remains of a term without annotations, and without applications to one argument. -/
def sole : Term → Term
  | .attributed t _ _ => t.sole
  | .apply _ [t] _ => t.sole
  | t => t

/-- The term is an atom of that text, or a sort of that name in the place of a term. -/
def Bears (text : String) : Term → Prop
  | .symbol s => s.name = text
  | .keyword k => k.name = text
  | .decimal t _ => t = text
  | .sort (.family name _ _ _) => name = text
  | _ => False

/-- A sort that is spelled in digit characters is one of that name. -/
theorem bears_of_spellSort {s : SmtSort} {e : SExpr} (spelled : Dialect.smtLib.spellSort s = .ok e)
    (digits : isDigits e.text = true) : (Term.sort s).Bears e.text := by
  have bool : ¬ isDigits (SExpr.atom "Bool").text = true := by decide
  cases s with
  | bool pos =>
    cases spelled
    exact absurd digits bool
  | family name args indices pos =>
    rw [Dialect.spellSort] at spelled
    split at spelled
    · obtain rfl := Except.ok.inj spelled
      unfold Dialect.sortAtom at digits ⊢
      split
      · next same =>
        rw [if_pos same] at digits
        exact absurd digits bool
      · rfl
    · cases spelled
  | abbreviation | function | parameter => cases spelled

/-- **What is printed in digit characters remains an atom that bears them**, a number or one that is
printed as it is. -/
theorem numeral_or_bears {t : Term} {e : SExpr} (spelled : Dialect.smtLib.spell t = .ok e)
    (digits : isDigits e.text = true) :
    (∃ n pos, t.sole = .numeral n pos ∧ e.text = toString n) ∨ t.sole.Bears e.text := by
  fun_induction sole t with
  | case1 t as pos ih =>
    rw [Dialect.spell] at spelled
    exact ih spelled
  | case2 head t pos ih =>
    rcases Dialect.spell_apply_listed spelled with ⟨items, rfl⟩ | ⟨t', same, alone⟩
    · exact absurd digits (SExpr.not_isDigits_list items)
    · obtain rfl := List.singleton_inj.mp same
      exact ih alone
  | case3 t notAttributed several =>
    have hash (c : Char) (text : String) : ¬ isDigits (String.ofList ['#', c] ++ text) = true :=
      Text.not_isDigits_of_mem (c := '#') (by simp) (by decide)
    cases t with
    | numeral n pos =>
      cases spelled
      exact .inl ⟨n, pos, rfl, rfl⟩
    | decimal | symbol =>
      cases spelled
      exact .inr rfl
    | hex text | binary text =>
      cases spelled
      exact absurd digits (hash _ text)
    | string content =>
      cases spelled
      have quote : '"' ∈ (Text.Quoted.encode content).toList := by
        rw [toList_encode]
        exact List.mem_cons_self
      exact absurd digits (Text.not_isDigits_of_mem quote (by decide))
    | apply head args pos =>
      rcases Dialect.spell_apply_listed spelled with ⟨items, rfl⟩ | ⟨t, rfl, -⟩
      · exact absurd digits (SExpr.not_isDigits_list items)
      · exact absurd rfl (several head t pos)
    | attributed t as pos => exact absurd rfl (notAttributed t as pos)
    | quantified | letIn =>
      obtain ⟨_, -, rest⟩ := Dialect.bind_eq_ok.mp spelled
      obtain ⟨_, -, is⟩ := Dialect.bind_eq_ok.mp rest
      cases is
      exact absurd digits (SExpr.not_isDigits_list _)
    | sort s => exact .inr (bears_of_spellSort spelled digits)
    | keyword | qualified | indexed | error | declaration | binding | attr => cases spelled

/-- The same of the text that a value is kept as. -/
theorem numeral_or_bears_of_settingText {t : Term} {text : String}
    (written : t.settingText = .ok text) (digits : isDigits text = true) :
    (∃ n pos, t.sole = .numeral n pos ∧ text = toString n) ∨ t.sole.Bears text := by
  by_cases keyword : ∃ k, t = .keyword k
  · obtain ⟨k, rfl⟩ := keyword
    exact .inr (Except.ok.inj written)
  · have other (k : Keyword) : t ≠ .keyword k := fun is => keyword ⟨k, is⟩
    rw [settingText_eq_render other] at written
    obtain ⟨e, spelled, is⟩ := Dialect.bind_eq_ok.mp written
    obtain rfl := Except.ok.inj is
    exact numeral_or_bears spelled digits

end Term

/-! ## Digit characters between bars -/

/-- A word in digit characters is a numeral or invalid. -/
theorem Lexeme.class_of_isDigits {text : String} {c : AtomClass} (digits : isDigits text = true)
    (class_ : Lexeme.HasClass c (.plain text)) : (∃ n, c = .numeral n) ∨ c = .invalid := by
  have is := AtomClass.ofChars_of_isDigits digits
  rw [show AtomClass.ofChars text.toList = c from class_] at is
  cases numeral : AtomClass.isNumeral text.toList with
  | true => exact .inl ⟨_, by simpa [numeral] using is⟩
  | false => exact .inr (by simpa [numeral] using is)

/-- **A name in digit characters stands between bars.** -/
theorem Lexeme.quoted_of_names {l : Lexeme} {text : String} (digits : isDigits text = true)
    (names : l.Names text) : l = .quoted text := by
  cases l with
  | plain name =>
    obtain ⟨rfl, class_⟩ := names
    rcases class_of_isDigits digits class_ with ⟨n, is⟩ | is <;> cases is
  | quoted content =>
    cases names
    rfl
  | opening | closing | string => cases names

namespace Term

/-- **What remains of a term that was read, and bears digit characters, stands between bars.** -/
theorem quoted_of_bears {t : Term} {ls : List Lexeme} {text : String} (spelled : t.Spelled ls)
    (digits : isDigits text = true) (bears : t.sole.Bears text) :
    (∃ s, t.sole = .symbol s) ∧ .quoted text ∈ ls := by
  fun_induction sole t generalizing ls with
  | case1 t as pos ih =>
    obtain ⟨-, ts, _, rfl, inner, -⟩ := spelled
    obtain ⟨symbol, is⟩ := ih inner bears
    exact ⟨symbol, by simp [parenthesised, is]⟩
  | case2 head t pos ih =>
    obtain ⟨-, hs, _, rfl, -, here, _, rfl, inner, rfl⟩ := spelled
    obtain ⟨symbol, is⟩ := ih inner bears
    exact ⟨symbol, by simp [parenthesised, is]⟩
  | case3 t =>
    cases t with
    | symbol s =>
      obtain ⟨l, rfl, names, -⟩ := spelled
      obtain rfl : s.name = text := bears
      rw [Lexeme.quoted_of_names digits names]
      exact ⟨⟨s, rfl⟩, List.mem_singleton_self _⟩
    | keyword k =>
      obtain rfl : k.name = text := bears
      rcases Lexeme.class_of_isDigits digits spelled.2 with ⟨n, is⟩ | is <;> cases is
    | decimal t =>
      obtain rfl : t = text := bears
      rcases Lexeme.class_of_isDigits digits spelled.2 with ⟨n, is⟩ | is <;> cases is
    | sort => cases spelled
    | _ => cases bears

end Term

/-- The same of the value of a key, where a word that is reserved counts as a symbol. -/
theorem Setting.quoted_of_bears {t : Term} {ls : List Lexeme} {text : String}
    (spelled : (Setting.term t).Spelled ls) (digits : isDigits text = true)
    (bears : t.sole.Bears text) : (∃ s, t.sole = .symbol s) ∧ .quoted text ∈ ls := by
  rcases spelled with term | word
  · exact Term.quoted_of_bears term digits bears
  · cases t with
    | symbol s =>
      obtain ⟨l, rfl, names⟩ := word
      obtain rfl : s.name = text := bears
      rw [Lexeme.quoted_of_names digits names]
      exact ⟨⟨s, rfl⟩, List.mem_singleton_self _⟩
    | _ => cases word

end SmtSession
