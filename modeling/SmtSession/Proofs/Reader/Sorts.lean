import SmtSession.Proofs.Reader.Reads

/-!
# Reading atoms and sorts as they are spelled

**A spelling of a sort is read as that sort**, positions apart: `sort_reads`. The
atoms come first, since every name and every numeral is one; a lexeme that spells
a symbol, a keyword, a numeral or an index is read as what it spells.
-/

namespace SmtSession.Reader

variable {after : List Lexeme} {l : Lexeme} {t : Token}

/-! ## Atoms -/

/-- A symbol is no parenthesis. -/
theorem not_parenthesis_of_names {name : String} (names : l.Names name) :
    ¬ (l = .opening ∨ l = .closing) := by
  rintro (rfl | rfl)
  · exact names
  · exact names

theorem atom_of_names {name : String} (names : t.lexeme.Names name) :
    Reads (atom t) [] after fun u => ∃ s, u = .symbol s ∧ s.name = name := by
  obtain ⟨lexeme, start, stop⟩ := t
  refine Reads.posOf_bind ?_
  intro pos
  cases lexeme with
  | opening | closing | string => cases names
  | quoted content => exact Reads.pure ⟨_, rfl, names⟩
  | plain text =>
    obtain ⟨rfl, class_⟩ := names
    simp only [class_]
    exact Reads.pure ⟨_, rfl, rfl⟩

/-- **A symbol is read as its name.** -/
theorem symbolOf_reads {name : String} (names : t.lexeme.Names name) :
    Reads (symbolOf t) [] after fun s => s.name = name := by
  unfold symbolOf
  rw [if_neg (not_parenthesis_of_names names)]
  refine Reads.silent_bind (atom_of_names names) ?_
  rintro _ ⟨s, rfl, same⟩
  exact Reads.pure same

theorem symbol_reads {name place : String} (names : l.Names name) :
    Reads (symbol place) [l] after fun s => s.name = name :=
  Reads.next_bind fun _ is => symbolOf_reads (is ▸ names)

/-- **A keyword is read as its text.** -/
theorem keywordOf_reads {k : Keyword} (spelled : k.Spelled t.lexeme) :
    Reads (keywordOf t) [] after fun k' => k'.name = k.name := by
  obtain ⟨is, class_⟩ := spelled
  unfold keywordOf
  rw [if_neg (by simp [is])]
  refine Reads.silent_bind (P := fun u => ∃ k' : Keyword, u = .keyword k' ∧ k'.name = k.name) ?_ ?_
  · unfold atom
    rw [is] at class_ ⊢
    refine Reads.posOf_bind ?_
    intro pos
    simp only [show AtomClass.ofChars k.name.toList = .keyword from class_]
    exact Reads.pure ⟨_, rfl, rfl⟩
  · rintro _ ⟨k', rfl, same⟩
    exact Reads.pure same

theorem keyword_reads {k : Keyword} {place : String} (spelled : k.Spelled l) :
    Reads (keyword place) [l] after fun k' => k'.name = k.name :=
  Reads.next_bind fun _ is => keywordOf_reads (is ▸ spelled)

/-- The number of a numeral. -/
theorem numeral?_of_counts {n : Int} (counts : t.lexeme.Counts n) :
    ∃ value : Nat, numeral? t = some value ∧ n = value := by
  obtain ⟨lexeme, start, stop⟩ := t
  cases lexeme with
  | plain text =>
    obtain ⟨value, class_, rfl⟩ := counts
    refine ⟨value, ?_, rfl⟩
    simp only [numeral?, class_]
  | _ => cases counts

/-- A symbol is no numeral. -/
theorem numeral?_of_names {name : String} (names : t.lexeme.Names name) : numeral? t = none := by
  obtain ⟨lexeme, start, stop⟩ := t
  cases lexeme with
  | plain text =>
    obtain ⟨rfl, class_⟩ := names
    simp only [numeral?, class_]
  | _ => rfl

/-- **A numeral is read as its number.** -/
theorem numeralOf_reads {n : Int} (counts : t.lexeme.Counts n) :
    Reads (numeralOf t) [] after fun value => (value : Int) = n := by
  obtain ⟨value, is, same⟩ := numeral?_of_counts counts
  unfold numeralOf
  rw [is]
  exact Reads.pure same.symm

/-- **An index is read as itself.** -/
theorem indexOf_reads {i : Index} (spelled : i.Spelled t.lexeme) :
    Reads (indexOf t) [] after fun j => j = i := by
  unfold indexOf
  cases i with
  | number n =>
    obtain ⟨value, is, same⟩ := numeral?_of_counts spelled
    rw [is]
    exact Reads.pure (by rw [same])
  | name text =>
    rw [numeral?_of_names spelled]
    refine Reads.silent_bind (symbolOf_reads spelled) ?_
    intro s same
    exact Reads.pure (by rw [same])

/-- An index is no closing parenthesis. -/
theorem not_closing_of_index {i : Index} (spelled : i.Spelled l) : l ≠ .closing := by
  rintro rfl
  cases i <;> exact spelled

theorem not_closing_of_counts {n : Int} (counts : l.Counts n) : l ≠ .closing := by
  rintro rfl
  exact counts

/-! ## Sorts -/

namespace SortReading

/-- What it is for a sort to be read, by a reader whose bound covers the tokens
left. -/
def Holds (parameters : List String) (s : SmtSort) : Prop :=
  ∀ (ls after : List Lexeme) (bound : Nat), s.Spelled parameters ls →
    ls.length + after.length ≤ bound + 1 →
    ReadsAt (sortOf parameters bound) ls after fun r => r.bare = s.bare

end SortReading

open SortReading (Holds)

theorem bareAll_eq_map (ss : List SmtSort) : SmtSort.bareAll ss = ss.map SmtSort.bare := by
  induction ss with
  | nil => rfl
  | cons s ss ih => rw [SmtSort.bareAll, ih]; rfl

theorem sorts_spelled {parameters : List String} {ss : List SmtSort} {ls : List Lexeme} :
    SmtSort.AllSpelled parameters ss ls ↔ SpelledAll (SmtSort.Spelled parameters) ss ls := by
  induction ss generalizing ls with
  | nil => exact Iff.rfl
  | cons s ss ih =>
    unfold SmtSort.AllSpelled SpelledAll
    simp only [ih]

/-- A sort that is one name. -/
theorem sortName_reads {parameters : List String} {name : String} {s : SmtSort}
    (names : t.lexeme.Names name)
    (is : ∀ r : Symbol, r.name = name →
      Reads (if r.name ∈ parameters then pure (.parameter r.name r.pos)
        else if t.lexeme = .plain "Bool" then pure (.bool r.pos)
        else pure (.family r.name [] [] r.pos) : Reader SmtSort) [] after fun r =>
          r.bare = s.bare) :
    Reads (sortName parameters t) [] after fun r => r.bare = s.bare :=
  Reads.silent_bind (symbolOf_reads names) is

/-- Values that are the same as some items are not none. -/
theorem isEmpty_of_map {as : List α} {f : α → γ} {bs : List γ} (some : bs ≠ [])
    (same : as.map f = bs) : ¬ as.isEmpty = true := by
  intro none
  rw [List.isEmpty_iff.mp none] at same
  exact some same.symm

/-- An indexed sort, behind its underscore. -/
theorem indexedSort_reads {start : Token} {name : String} {indices : List Index} {pos : Option Pos}
    {head : Lexeme} {is : List Lexeme} (some : indices ≠ []) (names : head.Names name)
    (spelled : SpelledEach (fun i l => ∃ n, i = .number n ∧ l.Counts n) indices is) :
    Reads (indexedSort start) (head :: (is ++ [.closing])) after fun r =>
      r.bare = (SmtSort.family name [] indices pos).bare := by
  refine Reads.one_bind (symbol_reads names) ?_
  intro s same
  refine Reads.remaining_bind ?_
  refine Reads.last_bind (until_each_reads (f := fun n : Nat => Index.number n) (g := id) spelled _
    (length_lt_closed _ _) ?_) ?_
  · rintro _ - l t ⟨n, rfl, counts⟩ is
    refine ⟨not_closing_of_counts counts, fun after => ?_⟩
    exact (numeralOf_reads (is ▸ counts)).mono fun value same => by rw [same]; rfl
  · rintro ⟨values, close⟩ ⟨same_indices, -⟩
    rw [List.map_id] at same_indices
    show Reads (if values.isEmpty then _ else _) [] _ _
    rw [if_neg (isEmpty_of_map some same_indices)]
    refine Reads.span_bind fun pos => Reads.pure ?_
    rw [SmtSort.bare, SmtSort.bare, same, ← same_indices]
    exact congrArg (SmtSort.family name [] · none) rfl

theorem bool_reads (parameters : List String) (pos : Option Pos) :
    Holds parameters (.bool pos) := by
  rintro _ after bound ⟨rfl, free⟩ -
  refine ⟨_, [], rfl, by simp, fun t is => ?_⟩
  unfold sortOf
  rw [if_pos (by simp [is])]
  have names : t.lexeme.Names "Bool" := by
    rw [is]
    exact ⟨rfl, by decide⟩
  refine sortName_reads names ?_
  intro r named
  rw [if_neg (by rw [named]; exact free), if_pos is]
  exact Reads.pure rfl

theorem parameter_reads (parameters : List String) (name : String) (pos : Option Pos) :
    Holds parameters (.parameter name pos) := by
  rintro _ after bound ⟨l, rfl, names, listed⟩ -
  obtain ⟨opening, closing⟩ := not_or.mp (not_parenthesis_of_names names)
  refine ⟨l, [], rfl, closing, fun t is => ?_⟩
  unfold sortOf
  rw [if_pos (by rw [is]; exact opening)]
  refine sortName_reads (is ▸ names) ?_
  intro r named
  rw [if_pos (by rw [named]; exact listed)]
  exact Reads.pure (by rw [SmtSort.bare, SmtSort.bare, named])

/-- A named sort is read when its arguments are. -/
theorem family_reads {parameters : List String} {args : List SmtSort}
    (args_read : ∀ s ∈ args, Holds parameters s) (name : String) (indices : List Index)
    (pos : Option Pos) : Holds parameters (.family name args indices pos) := by
  intro ls after bound spelled fits
  rcases spelled with ⟨rfl, rfl, l, rfl, names, free, other⟩ |
    ⟨some, rfl, head, ss, rfl, names, other, spelled⟩ | ⟨rfl, some, head, is, rfl, names, spelled⟩
  · obtain ⟨opening, closing⟩ := not_or.mp (not_parenthesis_of_names names)
    refine ⟨l, [], rfl, closing, fun t is => ?_⟩
    unfold sortOf
    rw [if_pos (by rw [is]; exact opening)]
    refine sortName_reads (is ▸ names) ?_
    intro r named
    rw [if_neg (by rw [named]; exact free), if_neg (by rw [is]; exact other)]
    exact Reads.pure (by rw [SmtSort.bare, SmtSort.bare, named])
  · refine ⟨.opening, _, rfl, opening_ne_closing, fun t is => ?_⟩
    simp only [parenthesised, List.length_cons, List.length_append] at fits
    obtain ⟨bound, rfl⟩ : ∃ b, bound = b + 1 := ⟨bound - 1, by omega⟩
    unfold sortOf
    rw [if_neg (by simp [is])]
    refine Reads.next_bind ?_
    intro h head_is
    rw [if_neg (by rw [head_is]; exact other)]
    refine Reads.silent_bind (symbolOf_reads (head_is ▸ names)) ?_
    intro r named
    refine Reads.last_bind (until_reads (f := SmtSort.bare) (g := SmtSort.bare)
      (sorts_spelled.mp spelled) _ (by omega) fun s is cs here later spells _ shorter => ?_) ?_
    · exact args_read s is _ _ _ spells (by
        simp only [List.length_append, List.length_cons]
        omega)
    · rintro ⟨sorts, close⟩ ⟨same_args, -⟩
      show Reads (if sorts.isEmpty then _ else _) [] _ _
      rw [if_neg (isEmpty_of_map (by simpa using some) same_args)]
      refine Reads.span_bind fun pos => Reads.pure ?_
      rw [SmtSort.bare, SmtSort.bare, named, bareAll_eq_map, bareAll_eq_map, same_args]
  · refine ⟨.opening, _, rfl, opening_ne_closing, fun t is => ?_⟩
    simp only [parenthesised, List.length_cons, List.length_append] at fits
    obtain ⟨bound, rfl⟩ : ∃ b, bound = b + 1 := ⟨bound - 1, by omega⟩
    unfold sortOf
    rw [if_neg (by simp [is])]
    refine Reads.next_bind ?_
    intro h head_is
    rw [if_pos head_is]
    exact indexedSort_reads some names spelled

mutual

/-- **A spelling of a sort is read as that sort.** -/
theorem sort_reads (parameters : List String) : (s : SmtSort) → Holds parameters s
  | .bool pos => bool_reads parameters pos
  | .parameter name pos => parameter_reads parameters name pos
  | .family name args indices pos => family_reads (sorts_read parameters args) name indices pos
  | .abbreviation _ _ _ _ => fun _ _ _ spelled => absurd spelled id
  | .function _ _ _ => fun _ _ _ spelled => absurd spelled id

theorem sorts_read (parameters : List String) : (ss : List SmtSort) → ∀ s ∈ ss, Holds parameters s
  | [], _, is => absurd is List.not_mem_nil
  | s :: ss, r, is => (List.mem_cons.mp is).elim (fun same => same ▸ sort_reads parameters s)
      (sorts_read parameters ss r)

end

/-- A sort is read with the number of tokens left as the bound. -/
theorem sortAt_reads {parameters : List String} {s : SmtSort} {ls : List Lexeme}
    (spelled : s.Spelled parameters ls) :
    ReadsAt (fun t => remaining >>= fun bound => sortOf parameters bound t) ls after fun r =>
      r.bare = s.bare :=
  ReadsAt.bounded fun bound fits => sort_reads parameters s ls after bound spelled fits

/-- The next tokens are read as the sort that they spell. -/
theorem nextSort_reads {parameters : List String} {s : SmtSort} {ls : List Lexeme}
    (spelled : s.Spelled parameters ls) :
    Reads (sort parameters) ls after fun r => r.bare = s.bare :=
  (sortAt_reads spelled).next

end SmtSession.Reader
