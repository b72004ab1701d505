import SmtSession.Proofs.Reader.Literals
import SmtSession.Proofs.Reader.Shapes

/-!
# Sorts and terms as they are written

**What is written of a sort or of a term spells it**, and all of it can stand in a
text: `SmtSort.written_of_shaped` and `Term.written_of_shaped`. Both halves go by one
induction, with a lemma for each thing that holds others.
-/

namespace SmtSession

open Lexeme (ofName ofSortName ofNumber Writable IsAtomText)

/-! ## Atoms as they are written -/

theorem names_ofName (name : String) : (ofName name).NamesTerm name := by
  unfold ofName
  split
  · next plain => exact ⟨⟨rfl, plain.2.1⟩, fun _ => plain.2.2⟩
  · exact ⟨rfl, nofun⟩

theorem writable_ofName (name : String) : (ofName name).Writable := by
  unfold ofName
  split
  · next plain => exact plain.1
  · trivial

theorem ofName_ne_reserved {word : String} (reserved : word ∈ Reader.reservedWords)
    (name : String) : ofName name ≠ .plain word := by
  unfold ofName
  split
  · next plain =>
    intro same
    cases same
    exact plain.2.2 reserved
  · nofun

theorem names_ofSortName (name : String) : (ofSortName name).Names name := by
  unfold ofSortName
  split
  · rfl
  · exact (names_ofName name).1

theorem writable_ofSortName (name : String) : (ofSortName name).Writable := by
  unfold ofSortName
  split
  · trivial
  · exact writable_ofName name

theorem ofSortName_ne_bool (name : String) : ofSortName name ≠ .plain "Bool" := by
  unfold ofSortName
  split
  · nofun
  · next other =>
    unfold ofName
    split
    · intro same
      cases same
      exact other rfl
    · nofun

theorem ofSortName_ne_underscore (name : String) : ofSortName name ≠ .plain "_" := by
  unfold ofSortName
  split
  · nofun
  · exact ofName_ne_reserved (by decide) name

theorem counts_ofNumber {n : Int} (shaped : 0 ≤ n) : (ofNumber n).Counts n := by
  obtain ⟨m, rfl⟩ := Int.eq_ofNat_of_zero_le shaped
  refine ⟨m, ?_, rfl⟩
  show AtomClass.ofChars (Nat.repr m).toList = _
  rw [Nat.toList_repr, AtomClass.ofChars_toDigits]

theorem writable_ofNumber {n : Int} (shaped : 0 ≤ n) : (ofNumber n).Writable := by
  obtain ⟨m, rfl⟩ := Int.eq_ofNat_of_zero_le shaped
  show IsAtomText (Nat.repr m).toList
  rw [Nat.toList_repr]
  refine AtomClass.isAtomText_of_literal Nat.toDigits_ne_nil ?_
  intro c is
  exact AtomClass.isLiteralChar_of_digit
    (AtomClass.isDecimalDigit_of_isNumeral (AtomClass.isNumeral_toDigits m) c is)

theorem Keyword.spelled_of_shaped {k : Keyword} (shaped : k.Shaped) :
    k.Spelled (.plain k.name) := by
  obtain ⟨cs, colon⟩ := List.head?_eq_some_iff.mp shaped.1
  refine ⟨rfl, ?_⟩
  show AtomClass.ofChars k.name.toList = .keyword
  rw [colon, AtomClass.ofChars_of_colon]

namespace Index

theorem spelled_of_shaped {i : Index} (shaped : i.Shaped) : i.Spelled i.lexeme := by
  cases i with
  | number n => exact counts_ofNumber shaped
  | name text => exact (names_ofName text).1

theorem writable_of_shaped {i : Index} (shaped : i.Shaped) : i.lexeme.Writable := by
  cases i with
  | number n => exact writable_ofNumber shaped
  | name text => exact writable_ofName text

end Index

/-! ## Lists -/

theorem spelledEach_map {spells : α → Lexeme → Prop} {f : α → Lexeme} {as : List α}
    (each : ∀ a ∈ as, spells a (f a)) : SpelledEach spells as (as.map f) := by
  induction as with
  | nil => rfl
  | cons a as ih =>
    obtain ⟨first, more⟩ := List.forall_mem_cons.mp each
    exact ⟨_, _, rfl, first, ih more⟩

theorem spelledAll_flatMap {spells : α → List Lexeme → Prop} {f : α → List Lexeme} {as : List α}
    (each : ∀ a ∈ as, spells a (f a)) : SpelledAll spells as (as.flatMap f) := by
  induction as with
  | nil => rfl
  | cons a as ih =>
    obtain ⟨first, more⟩ := List.forall_mem_cons.mp each
    exact ⟨_, _, rfl, first, ih more⟩

@[simp] theorem writable_parenthesised {ls : List Lexeme} :
    (∀ l ∈ parenthesised ls, l.Writable) ↔ ∀ l ∈ ls, l.Writable := by
  simp [parenthesised, or_imp, forall_and, Writable]

theorem writable_map {f : α → Lexeme} {as : List α} (each : ∀ a ∈ as, (f a).Writable) :
    ∀ l ∈ as.map f, l.Writable :=
  List.forall_mem_map.mpr each

theorem writable_flatMap {f : α → List Lexeme} {as : List α}
    (each : ∀ a ∈ as, ∀ l ∈ f a, l.Writable) : ∀ l ∈ as.flatMap f, l.Writable := by
  intro l is
  obtain ⟨a, here, inner⟩ := List.mem_flatMap.mp is
  exact each a here l inner

/-! ## Sorts as they are written -/

namespace SmtSort

variable {parameters : List String}

/-- What is written of a sort spells it and can stand in a text. -/
def IsWritten (parameters : List String) (s : SmtSort) : Prop :=
  s.Spelled parameters s.lexemes ∧ ∀ l ∈ s.lexemes, l.Writable

theorem allWritten {ss : List SmtSort}
    (written : ∀ s ∈ ss, s.Shaped parameters → s.IsWritten parameters)
    (shaped : AllShaped parameters ss) :
    AllSpelled parameters ss (allLexemes ss) ∧ ∀ l ∈ allLexemes ss, l.Writable := by
  induction ss with
  | nil => exact ⟨rfl, nofun⟩
  | cons s ss ih =>
    obtain ⟨first, more⟩ := List.forall_mem_cons.mp written
    obtain ⟨spelled, writable⟩ := first shaped.1
    obtain ⟨spelled_more, writable_more⟩ := ih more shaped.2
    refine ⟨⟨_, _, rfl, spelled, spelled_more⟩, ?_⟩
    rw [allLexemes]
    exact List.forall_mem_append.mpr ⟨writable, writable_more⟩

theorem family_written {args : List SmtSort}
    (args_written : ∀ s ∈ args, s.Shaped parameters → s.IsWritten parameters) (name : String)
    (indices : List Index) (pos : Option Pos)
    (shaped : (family name args indices pos).Shaped parameters) :
    (family name args indices pos).IsWritten parameters := by
  rcases shaped with ⟨rfl, rfl, free⟩ | ⟨some, rfl, shaped⟩ | ⟨rfl, some, numbers⟩
  · refine ⟨.inl ⟨rfl, rfl, _, rfl, names_ofSortName name, free, ofSortName_ne_bool name⟩, ?_⟩
    rw [lexemes, List.forall_mem_singleton]
    exact writable_ofSortName name
  · obtain ⟨spelled, writable⟩ := allWritten args_written shaped
    have written : lexemes (.family name args [] pos) =
        parenthesised (ofSortName name :: allLexemes args) := by
      cases args with
      | nil => exact absurd rfl some
      | cons => rw [lexemes] <;> nofun
    refine ⟨.inr (.inl ⟨some, rfl, _, _, written, names_ofSortName name,
      ofSortName_ne_underscore name, spelled⟩), ?_⟩
    rw [written, writable_parenthesised]
    exact List.forall_mem_cons.mpr ⟨writable_ofSortName name, writable⟩
  · have shaped : ∀ i ∈ indices, i.Shaped := by
      intro i is
      obtain ⟨n, rfl⟩ := numbers i is
      exact Int.natCast_nonneg n
    have written : lexemes (.family name [] indices pos) =
        parenthesised (.plain "_" :: ofSortName name :: indices.map Index.lexeme) := by
      cases indices with
      | nil => exact absurd rfl some
      | cons => rfl
    refine ⟨.inr (.inr ⟨rfl, some, _, _, written, names_ofSortName name, ?_⟩), ?_⟩
    · refine spelledEach_map ?_
      intro i is
      obtain ⟨n, rfl⟩ := numbers i is
      exact ⟨n, rfl, counts_ofNumber (Int.natCast_nonneg n)⟩
    · rw [written, writable_parenthesised, List.forall_mem_cons, List.forall_mem_cons]
      exact ⟨(by decide : IsAtomText _), writable_ofSortName name,
        writable_map fun i is => Index.writable_of_shaped (shaped i is)⟩

mutual

/-- **What is written of a sort spells it.** -/
theorem written_of_shaped (parameters : List String) : (s : SmtSort) → s.Shaped parameters →
    s.IsWritten parameters
  | .bool _, free => ⟨⟨rfl, free⟩, List.forall_mem_singleton.mpr (by decide : IsAtomText _)⟩
  | .parameter name _, listed =>
    ⟨⟨_, rfl, (names_ofName name).1, listed⟩, List.forall_mem_singleton.mpr (writable_ofName name)⟩
  | .family name args indices pos, shaped =>
    family_written (allWritten_of_shaped parameters args) name indices pos shaped
  | .abbreviation _ _ _ _, shaped => absurd shaped id
  | .function _ _ _, shaped => absurd shaped id

theorem allWritten_of_shaped (parameters : List String) : (ss : List SmtSort) → ∀ s ∈ ss,
    s.Shaped parameters → s.IsWritten parameters
  | [], _, is => absurd is List.not_mem_nil
  | s :: ss, r, is => (List.mem_cons.mp is).elim (fun same => same ▸ written_of_shaped parameters s)
      (allWritten_of_shaped parameters ss r)

end

end SmtSort

namespace Declaration

theorem spelled_of_shaped {decl : Declaration} (shaped : decl.Shaped) : decl.Spelled decl.lexemes :=
  ⟨_, _, rfl, (names_ofName _).1, (SmtSort.written_of_shaped [] decl.sort shaped).1⟩

theorem writable_of_shaped {decl : Declaration} (shaped : decl.Shaped) :
    ∀ l ∈ decl.lexemes, l.Writable := by
  rw [lexemes, writable_parenthesised]
  exact List.forall_mem_cons.mpr
    ⟨writable_ofName _, (SmtSort.written_of_shaped [] decl.sort shaped).2⟩

end Declaration

/-! ## Terms as they are written -/

namespace Term

/-- What is written of a term spells it and can stand in a text. -/
def IsWritten (t : Term) : Prop :=
  t.Spelled t.lexemes ∧ ∀ l ∈ t.lexemes, l.Writable

/-- What is written between parentheses can stand in a text when all between them can. -/
theorem isWritten_parenthesised {t : Term} {ls : List Lexeme} (is : t.lexemes = parenthesised ls)
    (spelled : t.Spelled (parenthesised ls)) (writable : ∀ l ∈ ls, l.Writable) : t.IsWritten := by
  rw [IsWritten, is]
  exact ⟨spelled, writable_parenthesised.mpr writable⟩

theorem decimal_written {text : String} {pos : Option Pos}
    (shaped : AtomClass.isDecimal text.toList = true) : (decimal text pos).IsWritten := by
  refine ⟨⟨rfl, AtomClass.ofChars_of_isDecimal shaped⟩, List.forall_mem_singleton.mpr ?_⟩
  obtain ⟨whole, places, parts, digits, more⟩ := AtomClass.isDecimal_parts shaped
  refine AtomClass.isAtomText_of_literal (by simp [parts]) ?_
  intro c is
  rw [parts, List.mem_append, List.mem_cons] at is
  rcases is with is | rfl | is
  · exact AtomClass.isLiteralChar_of_digit (digits c is)
  · rfl
  · exact AtomClass.isLiteralChar_of_digit (more c is)

/-- A literal behind the two characters that mark its base. -/
theorem isAtomText_of_based {digits : String} {letter : Char}
    (marks : AtomClass.isLiteralChar letter = true)
    (all : ∀ c ∈ digits.toList, AtomClass.isLiteralChar c = true) :
    IsAtomText ('#' :: letter :: digits.toList) := by
  refine AtomClass.isAtomText_of_literal nofun ?_
  rw [List.forall_mem_cons, List.forall_mem_cons]
  exact ⟨rfl, marks, all⟩

theorem hex_written {digits : String} {pos : Option Pos} (some : digits.toList ≠ [])
    (all : ∀ c ∈ digits.toList, AtomClass.isHexDigit c = true) : (hex digits pos).IsWritten := by
  have text : ("#x" ++ digits).toList = '#' :: 'x' :: digits.toList := by
    rw [String.toList_append]
    rfl
  refine ⟨⟨_, rfl, ?_⟩, List.forall_mem_singleton.mpr ?_⟩
  · show AtomClass.ofChars ("#x" ++ digits).toList = _
    rw [text, AtomClass.ofChars_of_hex some all, String.ofList_toList]
  · show IsAtomText ("#x" ++ digits).toList
    rw [text]
    exact isAtomText_of_based rfl fun c is => by simp [AtomClass.isLiteralChar, all c is]

theorem binary_written {digits : String} {pos : Option Pos} (some : digits.toList ≠ [])
    (all : ∀ c ∈ digits.toList, c = '0' ∨ c = '1') : (binary digits pos).IsWritten := by
  have text : ("#b" ++ digits).toList = '#' :: 'b' :: digits.toList := by
    rw [String.toList_append]
    rfl
  refine ⟨⟨_, rfl, ?_⟩, List.forall_mem_singleton.mpr ?_⟩
  · show AtomClass.ofChars ("#b" ++ digits).toList = _
    rw [text, AtomClass.ofChars_of_binary some all, String.ofList_toList]
  · show IsAtomText ("#b" ++ digits).toList
    rw [text]
    refine isAtomText_of_based rfl ?_
    intro c is
    rcases all c is with rfl | rfl <;> rfl

theorem indexed_written {s : Symbol} {indices : List Index} {pos : Option Pos} (some : indices ≠ [])
    (shaped : ∀ i ∈ indices, i.Shaped) : (indexed s indices pos).IsWritten := by
  refine isWritten_parenthesised rfl ⟨some, _, _, rfl, (names_ofName _).1,
    spelledEach_map fun i is => Index.spelled_of_shaped (shaped i is)⟩ ?_
  rw [List.forall_mem_cons, List.forall_mem_cons]
  exact ⟨(by decide : IsAtomText _), writable_ofName _,
    writable_map fun i is => Index.writable_of_shaped (shaped i is)⟩

theorem qualified_written {s : Symbol} {σ : SmtSort} {pos : Option Pos} (shaped : σ.Shaped []) :
    (qualified s σ pos).IsWritten := by
  obtain ⟨spelled, writable⟩ := SmtSort.written_of_shaped [] σ shaped
  refine isWritten_parenthesised rfl ⟨_, _, rfl, (names_ofName _).1, spelled⟩ ?_
  rw [List.forall_mem_cons, List.forall_mem_cons]
  exact ⟨(by decide : IsAtomText _), writable_ofName _, writable⟩

theorem apply_written {head : Term} {args : List Term} {pos : Option Pos}
    (identifier : head.IsIdentifier) (head_written : head.IsWritten)
    (args_written : AllSpelled args (allLexemes args) ∧ ∀ l ∈ allLexemes args, l.Writable) :
    (apply head args pos).IsWritten := by
  refine isWritten_parenthesised rfl ⟨identifier, _, _, rfl, head_written.1, args_written.1⟩ ?_
  exact List.forall_mem_append.mpr ⟨head_written.2, args_written.2⟩

theorem quantified_written {q : Quantifier} {parameters : List Declaration} {body : Term}
    {pos : Option Pos} (some : parameters ≠ []) (shaped : ∀ decl ∈ parameters, decl.Shaped)
    (body_written : body.IsWritten) : (quantified q parameters body pos).IsWritten := by
  refine isWritten_parenthesised rfl ⟨some, _, _, rfl, spelledAll_flatMap fun decl is =>
    Declaration.spelled_of_shaped (shaped decl is), body_written.1⟩ ?_
  rw [List.forall_mem_cons, List.forall_mem_append, writable_parenthesised]
  have word : IsAtomText q.word.toList := by cases q <;> decide
  exact ⟨word, writable_flatMap fun decl is => Declaration.writable_of_shaped (shaped decl is),
    body_written.2⟩

theorem letIn_written {bindings : List Binding} {body : Term} {pos : Option Pos}
    (some : bindings ≠ [])
    (bindings_written : BindingsSpelled bindings (bindingsLexemes bindings) ∧
      ∀ l ∈ bindingsLexemes bindings, l.Writable)
    (body_written : body.IsWritten) : (letIn bindings body pos).IsWritten := by
  refine isWritten_parenthesised rfl ⟨some, _, _, rfl, bindings_written.1, body_written.1⟩ ?_
  rw [List.forall_mem_cons, List.forall_mem_append, writable_parenthesised]
  exact ⟨(by decide : IsAtomText _), bindings_written.2, body_written.2⟩

theorem attributed_written {term : Term} {attributes : List Attribute} {pos : Option Pos}
    (some : attributes ≠ []) (term_written : term.IsWritten)
    (attributes_written : AttributesSpelled attributes (attributesLexemes attributes) ∧
      ∀ l ∈ attributesLexemes attributes, l.Writable) :
    (attributed term attributes pos).IsWritten := by
  refine isWritten_parenthesised rfl ⟨some, _, _, rfl, term_written.1, attributes_written.1⟩ ?_
  rw [List.forall_mem_cons, List.forall_mem_append]
  exact ⟨(by decide : IsAtomText _), term_written.2, attributes_written.2⟩

mutual

/-- **What is written of a term spells it.** -/
theorem written_of_shaped : (t : Term) → t.Shaped → t.IsWritten
  | .numeral _ _, shaped =>
    ⟨⟨_, rfl, counts_ofNumber shaped⟩, List.forall_mem_singleton.mpr (writable_ofNumber shaped)⟩
  | .decimal _ _, shaped => decimal_written shaped
  | .hex _ _, ⟨front, all⟩ => hex_written front all
  | .binary _ _, ⟨front, all⟩ => binary_written front all
  | .string _ _, _ => ⟨rfl, List.forall_mem_singleton.mpr trivial⟩
  | .symbol s, _ =>
    ⟨⟨_, rfl, names_ofName s.name⟩, List.forall_mem_singleton.mpr (writable_ofName _)⟩
  | .keyword _, shaped =>
    ⟨⟨rfl, (Keyword.spelled_of_shaped shaped).2⟩, List.forall_mem_singleton.mpr shaped.2⟩
  | .qualified _ _ _, shaped => qualified_written shaped
  | .indexed _ _ _, ⟨front, shaped⟩ => indexed_written front shaped
  | .apply head args _, ⟨identifier, head_shaped, shaped⟩ =>
    apply_written identifier (written_of_shaped head head_shaped) (allWritten_of_shaped args shaped)
  | .quantified _ _ body _, ⟨front, shaped, body_shaped⟩ =>
    quantified_written front shaped (written_of_shaped body body_shaped)
  | .letIn bindings body _, ⟨front, shaped, body_shaped⟩ =>
    letIn_written front (bindingsWritten_of_shaped bindings shaped)
      (written_of_shaped body body_shaped)
  | .attributed term attributes _, ⟨front, term_shaped, shaped⟩ =>
    attributed_written front (written_of_shaped term term_shaped)
      (attributesWritten_of_shaped attributes shaped)
  | .error _ _, shaped | .sort _, shaped | .declaration _, shaped | .binding _, shaped
  | .attr _, shaped => absurd shaped id

theorem allWritten_of_shaped : (ts : List Term) → AllShaped ts →
    AllSpelled ts (allLexemes ts) ∧ ∀ l ∈ allLexemes ts, l.Writable
  | [], _ => ⟨rfl, nofun⟩
  | t :: ts, ⟨first, more⟩ =>
    have written := written_of_shaped t first
    have all := allWritten_of_shaped ts more
    ⟨⟨_, _, rfl, written.1, all.1⟩, List.forall_mem_append.mpr ⟨written.2, all.2⟩⟩

theorem bindingsWritten_of_shaped : (bs : List Binding) → BindingsShaped bs →
    BindingsSpelled bs (bindingsLexemes bs) ∧ ∀ l ∈ bindingsLexemes bs, l.Writable
  | [], _ => ⟨rfl, nofun⟩
  | .mk s t :: bs, ⟨first, more⟩ =>
    have written := written_of_shaped t first
    have all := bindingsWritten_of_shaped bs more
    ⟨⟨_, _, _, rfl, (names_ofName s.name).1, written.1, all.1⟩, List.forall_mem_append.mpr
      ⟨writable_parenthesised.mpr (List.forall_mem_cons.mpr ⟨writable_ofName s.name, written.2⟩),
        all.2⟩⟩

theorem attributesWritten_of_shaped : (as : List Attribute) → AttributesShaped as →
    AttributesSpelled as (attributesLexemes as) ∧ ∀ l ∈ attributesLexemes as, l.Writable
  | [], _ => ⟨rfl, nofun⟩
  | .mk _ none :: as, ⟨key, more⟩ =>
    have all := attributesWritten_of_shaped as more
    ⟨⟨_, rfl, (Keyword.spelled_of_shaped key).2, all.1⟩, List.forall_mem_cons.mpr ⟨key.2, all.2⟩⟩
  | .mk _ (some v) :: as, ⟨key, other, first, more⟩ =>
    have written := written_of_shaped v first
    have all := attributesWritten_of_shaped as more
    ⟨⟨_, _, rfl, (Keyword.spelled_of_shaped key).2, other, .inl written.1, all.1⟩,
      List.forall_mem_cons.mpr ⟨key.2, List.forall_mem_append.mpr ⟨written.2, all.2⟩⟩⟩

end

end Term

end SmtSession
