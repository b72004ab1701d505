import SmtSession.Proofs.Reader.Taken

/-!
# What is taken for terms and commands

**What is read accounts for what was taken**, on for the terms and the commands:
`termOf` is the induction over nested terms, with one lemma for each way a term is put
together, and `commands` the one over the commands of a script.
-/

namespace SmtSession.Reader.Takes

variable {input : Input} {Q : List Token → α → Prop}

/-! ## Atoms and identifiers -/

/-- A term that is one atom. -/
theorem plainTerm {t : Token} (other : ¬ (t.lexeme = .opening ∨ t.lexeme = .closing)) :
    TakesNone input (Reader.plainTerm t) fun a => Located input [] (.term a) [t] := by
  have leaf {a : Term} (spelled : a.Spelled [t.lexeme])
      (ranged : a.pos = some ⟨t.start, t.stop, some input.source⟩) :
      Located input [] (.term a) [t] :=
    .leaf ⟨spelled, ranged⟩ (Term.parts_of_one (.inl spelled))
  refine none_bind (atom t) fun a ⟨is, ranged⟩ => ?_
  split
  · next s =>
    split
    · exact refuse _ _
    · next free =>
      refine pure ⟨rfl, leaf ⟨_, rfl, names_of_atom is other, ?_⟩ ranged⟩
      intro plain reserved
      exact free ⟨plain, reserved⟩
  · next a none => exact pure ⟨rfl, leaf (spelled_of_atom is none) ranged⟩

theorem indexOf (t : Token) : TakesNone input (Reader.indexOf t) fun i => i.Spelled t.lexeme := by
  unfold Reader.indexOf
  split
  · next value is => exact pure ⟨rfl, counts_of_numeral? is⟩
  · exact none_bind (symbolOf t) fun s ⟨names, _⟩ => pure ⟨rfl, names⟩

theorem indexedIdentifier {start head : Token} (opens : start.lexeme = .opening)
    (word : head.lexeme = .plain "_") :
    Takes input (Reader.indexedIdentifier start) fun more a =>
      a.IsIdentifier ∧ Located input [] (.term a) (start :: head :: more) := by
  refine symbol_bind fun t s names located => remaining_bind fun n => ?_
  refine last_bind (untilClosing_one indexOf n) ?_
  rintro _ ⟨indices, close⟩ ⟨inner, rfl, closes, spelled⟩
  dsimp only
  split
  · exact refuseSpan _ _ _
  · next some =>
    refine span_bind (pure ⟨rfl, trivial, .closed (head :: t :: inner) rfl opens closes rfl ?_ ?_⟩)
    · refine ⟨by simpa using some, t.lexeme, inner.map Token.lexeme, ?_, names, spelled⟩
      rw [← word]
      rfl
    · exact ((Strung.one located).before inner).behind [head]

theorem qualifiedIdentifier {start head : Token} (opens : start.lexeme = .opening)
    (word : head.lexeme = .plain "as") :
    Takes input (Reader.qualifiedIdentifier start) fun more a =>
      a.IsIdentifier ∧ Located input [] (.term a) (start :: head :: more) := by
  refine symbol_bind fun t s names located => bind (sort_located []) fun inner σ sort => ?_
  refine closing_bind fun close closes => span_bind (pure ⟨trivial, ?_⟩)
  refine .closed (head :: t :: inner) rfl opens closes rfl ?_ ?_
  · refine ⟨t.lexeme, inner.map Token.lexeme, ?_, names, sort.spelled⟩
    rw [← word]
    rfl
  · exact ((Strung.one located).append (.one sort)).behind [head]

theorem identifier {start : Token} (opens : start.lexeme = .opening) :
    Takes input (Reader.identifier start) fun more a =>
      a.IsIdentifier ∧ Located input [] (.term a) (start :: more) := by
  refine next_bind fun head => ?_
  split
  · next word => exact indexedIdentifier opens word
  split
  · next word => exact qualifiedIdentifier opens word
  · exact refuse _ _

theorem functionOf {head : Token} (other : head.lexeme ≠ .closing) :
    Takes input (Reader.functionOf head) fun more f =>
      f.IsIdentifier ∧ Located input [] (.term f) (head :: more) := by
  unfold Reader.functionOf
  split
  · next opens => exact identifier opens
  · next plain =>
    refine none_bind (plainTerm (not_or.mpr ⟨plain, other⟩)) fun a located => ?_
    split
    · exact pure ⟨trivial, located⟩
    · exact refuse _ _

/-! ## Variables with their sorts -/

theorem declarationOf (place : String) (t : Token) :
    Takes input (Reader.declarationOf place t) fun more d =>
      Held input [] Declaration.Spelled Declaration.parts d (t :: more) := by
  unfold Reader.declarationOf
  split
  · next opens =>
    refine symbol_bind fun name s names located => bind (sort_located []) fun inner σ sort => ?_
    refine closing_bind fun close closes => pure ⟨?_, ?_⟩
    · refine ⟨name.lexeme, inner.map Token.lexeme, ?_, names, sort.spelled⟩
      simp [parenthesised, opens, closes]
    · exact (((Strung.one located).append (.one sort)).before [close]).behind [t]
  · exact refuse _ _

theorem declarations (place : String) :
    Takes input (Reader.declarations place) fun taken ds =>
      ∃ inner, taken.map Token.lexeme = parenthesised inner ∧
        SpelledAll Declaration.Spelled ds inner ∧
        Strung (Located input []) (ds.flatMap Declaration.parts) taken := by
  refine opening_bind fun start opens => remaining_bind fun n => ?_
  refine map (untilClosing_each (fun t _ => declarationOf place t) n) ?_
  rintro _ ⟨ds, close⟩ ⟨inner, rfl, closes, all⟩
  obtain ⟨spelled, strung⟩ := all.held
  refine ⟨inner.map Token.lexeme, by simp [parenthesised, opens, closes], spelled, ?_⟩
  exact (strung.before [close]).behind [start]

/-! ## Terms in terms -/

section

variable {term : Token → Reader Term}
  (term_takes : ∀ t : Token,
    Takes input (term t) fun more a => Located input [] (.term a) (t :: more))

include term_takes

theorem bindingOf (t : Token) : Takes input (Reader.bindingOf term t) fun more b =>
    Held input [] BindingSpelled Binding.parts b (t :: more) := by
  unfold Reader.bindingOf
  split
  · next opens =>
    refine symbol_bind fun name s names located => next_bind fun t' => ?_
    refine bind (term_takes t') fun inner bound bound_located => ?_
    refine closing_bind fun close closes => pure ⟨?_, ?_⟩
    · refine ⟨name.lexeme, (t' :: inner).map Token.lexeme, ?_, names, bound_located.spelled⟩
      simp [parenthesised, opens, closes]
    · exact (((Strung.one located).append (.one bound_located)).before [close]).behind [t]
  · exact refuse _ _

theorem attributeValue {t : Token} (other : t.lexeme ≠ .closing) :
    Takes input (Reader.attributeValue term t) fun more v =>
      Located input [] (.label v) (t :: more) := by
  unfold Reader.attributeValue
  split
  · exact mono (term_takes t) fun _ _ located => located.label
  · next plain =>
    refine mono (atom t) ?_
    rintro _ a ⟨rfl, is, ranged⟩
    have spelled : a.Spelled [t.lexeme] ∨ a.SpelledWord [t.lexeme] := by
      rcases is with spelled | word | ⟨parenthesis, -⟩
      · exact .inl spelled
      · exact .inr word
      · exact absurd parenthesis (not_or.mpr ⟨plain, other⟩)
    exact .leaf ⟨spelled, ranged⟩ (Term.parts_of_one spelled)

omit term_takes in
/-- A keyword is spelled by an atom that begins with a colon. -/
theorem isKeyword_of_spelled {t : Token} {more : List Token} {v : Term} (is : v.IsKeyword)
    (spelled : v.Spelled ((t :: more).map Token.lexeme) ∨
      v.SpelledWord ((t :: more).map Token.lexeme)) : isKeyword t = true := by
  cases v with
  | keyword k =>
    obtain ⟨same, class_⟩ := spelled.resolve_right id
    obtain ⟨plain, -⟩ := List.cons.inj same
    exact isKeyword_of_class plain class_
  | _ => cases is

theorem attributeOf (t : Token) : Takes input (Reader.attributeOf term t) fun more a =>
    Held input [] AttributeSpelled Attribute.parts a (t :: more) := by
  refine none_bind (keywordOf t) fun k ⟨spelled, located⟩ => ahead ?_ ?_
  · intro ahead stop
    exact pure ⟨⟨t.lexeme, rfl, spelled⟩, .one located⟩
  · intro t' goes
    obtain ⟨other, no_keyword⟩ := not_or.mp goes
    refine map (attributeValue term_takes other) fun more v value => ⟨?_, ?_⟩
    · have is_value : ¬ v.IsKeyword := fun is => no_keyword (isKeyword_of_spelled is value.spelled)
      exact ⟨t.lexeme, (t' :: more).map Token.lexeme, rfl, spelled, is_value, value.spelled⟩
    · exact (Strung.one located).append (.one value)

theorem quantifiedTerm {q : Quantifier} {start head : Token} (opens : start.lexeme = .opening)
    (word : head.lexeme = .plain q.word) :
    Takes input (Reader.quantifiedTerm term q start head) fun more a =>
      Located input [] (.term a) (start :: head :: more) := by
  refine bind (declarations _) ?_
  rintro taken ds ⟨inner, between, all, strung⟩
  split
  · exact refuse _ _
  · next some =>
    refine next_bind fun t => bind (term_takes t) fun more body located => ?_
    refine closing_bind fun close closes => span_bind (pure ?_)
    refine .closed (head :: (taken ++ t :: more)) (by simp) opens closes rfl ?_ ?_
    · refine ⟨by simpa using some, inner, (t :: more).map Token.lexeme, ?_, all, located.spelled⟩
      simp [between, word]
    · exact (strung.append (.one located)).behind [head]

theorem letTerm {start head : Token} (opens : start.lexeme = .opening)
    (word : head.lexeme = .plain "let") :
    Takes input (Reader.letTerm term start) fun more a =>
      Located input [] (.term a) (start :: head :: more) := by
  refine opening_bind fun first first_opens => remaining_bind fun n => ?_
  refine bind (untilClosing_each (fun t _ => bindingOf term_takes t) n) ?_
  rintro _ ⟨bs, last⟩ ⟨inner, rfl, last_closes, all⟩
  dsimp only
  split
  · exact refuse _ _
  · next some =>
    obtain ⟨spelled, strung⟩ := all.held
    refine next_bind fun t => bind (term_takes t) fun more body located => ?_
    refine closing_bind fun close closes => span_bind (pure ?_)
    refine .closed ([head, first] ++ (inner ++ [last] ++ t :: more)) (by simp) opens closes rfl
      ?_ ?_
    · refine ⟨by simpa using some, inner.map Token.lexeme, (t :: more).map Token.lexeme, ?_,
        bindings_spelled.mpr spelled, located.spelled⟩
      simp [parenthesised, word, first_opens, last_closes]
    · exact ((strung.before [last]).append (.one located)).behind [head, first]

theorem annotatedTerm {start head : Token} (opens : start.lexeme = .opening)
    (word : head.lexeme = .plain "!") :
    Takes input (Reader.annotatedTerm term start) fun more a =>
      Located input [] (.term a) (start :: head :: more) := by
  refine next_bind fun t => bind (term_takes t) fun more body located => ?_
  refine remaining_bind fun n => ?_
  refine last_bind (untilClosing_each (fun t _ => attributeOf term_takes t) n) ?_
  rintro _ ⟨as, close⟩ ⟨inner, rfl, closes, all⟩
  dsimp only
  split
  · exact refuse _ _
  · next some =>
    obtain ⟨spelled, strung⟩ := all.held
    refine span_bind (pure ⟨rfl, .closed (head :: (t :: more ++ inner)) (by simp) opens closes rfl
      ?_ ?_⟩)
    · refine ⟨by simpa using some, (t :: more).map Token.lexeme, inner.map Token.lexeme, ?_,
        located.spelled, attributes_spelled.mpr spelled⟩
      simp [word]
    · exact ((Strung.one located).append strung).behind [head]

theorem application {start head : Token} (opens : start.lexeme = .opening)
    (other : head.lexeme ≠ .closing) :
    Takes input (Reader.application term start head) fun more a =>
      Located input [] (.term a) (start :: head :: more) := by
  refine bind (functionOf other) fun more f ⟨is, located⟩ => remaining_bind fun n => ?_
  refine last_bind (untilClosing_each (fun t _ => term_takes t) n) ?_
  rintro _ ⟨args, close⟩ ⟨inner, rfl, closes, all⟩
  obtain ⟨spelled, strung⟩ := all.located
  refine span_bind (pure ⟨rfl, .closed (head :: more ++ inner) (by simp) opens closes rfl ?_ ?_⟩)
  · refine ⟨is, (head :: more).map Token.lexeme, inner.map Token.lexeme, ?_, located.spelled,
      terms_spelled.mpr spelled⟩
    simp
  · exact (Strung.one located).append strung

end

/-- **A term is located at the tokens that it takes**, with everything in it, however deep its
parts are nested. -/
theorem termOf (bound : Nat) (t : Token) :
    Takes input (Reader.termOf bound t) fun more a => Located input [] (.term a) (t :: more) := by
  have one {t : Token} (other : ¬ (t.lexeme = .opening ∨ t.lexeme = .closing)) :
      Takes input (Reader.plainTerm t) fun more a => Located input [] (.term a) (t :: more) := by
    refine mono (plainTerm other) ?_
    rintro _ a ⟨rfl, located⟩
    exact located
  induction bound generalizing t with
  | zero =>
    unfold Reader.termOf
    split
    · exact refuse _ _
    next closing =>
    split
    · next opening => exact one (not_or.mpr ⟨opening, closing⟩)
    · exact endOfInput _
  | succ bound ih =>
    unfold Reader.termOf
    split
    · exact refuse _ _
    next closing =>
    split
    · next opening => exact one (not_or.mpr ⟨opening, closing⟩)
    next other =>
    have opens : t.lexeme = .opening := Decidable.not_not.mp other
    refine next_bind fun head => ?_
    split
    · exact refuseSpan _ _ _
    next head_other =>
    split
    · next word => exact mono (indexedIdentifier opens word) fun _ _ both => both.2
    split
    · next word => exact mono (qualifiedIdentifier opens word) fun _ _ both => both.2
    split
    · next word => exact quantifiedTerm ih opens word
    split
    · next word => exact quantifiedTerm ih opens word
    split
    · next word => exact letTerm ih opens word
    split
    · next word => exact annotatedTerm ih opens word
    · exact application ih opens head_other

theorem term_located : Takes input Reader.term fun taken a =>
    Located input [] (.term a) taken :=
  next_bind fun t => remaining_bind fun n => termOf n t

theorem term : Takes input Reader.term fun taken a =>
    ∃ first more, taken = first :: more ∧ ReadFrom input a.Spelled a.pos first more :=
  mono term_located fun _ _ located => located.stands.read

/-- A whole term takes its spelling. -/
theorem whole_term : Takes input Reader.term fun taken a => a.Spelled (taken.map Token.lexeme) :=
  mono term_located fun _ _ located => located.spelled

/-! ## Parts of commands -/

/-- A keyword, and a value where none may be absent. -/
theorem setting (word : String) (optional : Bool) :
    Takes input (Reader.setting word optional) fun taken (k, v) =>
      ∃ l vs, taken.map Token.lexeme = l :: vs ∧ k.Spelled l ∧
        (optional = true ∧ v = .absent ∧ vs = [] ∨
          ∃ u, v = .term u ∧ (u.Spelled vs ∨ u.SpelledWord vs)) := by
  refine keyword_bind fun t k spelled => ahead ?_ ?_
  · intro close stop
    split
    · next optional => exact pure ⟨t.lexeme, [], rfl, spelled, .inl ⟨optional, rfl, rfl⟩⟩
    · exact next_bind fun _ => refuse _ _
  · intro t' other
    refine remaining_bind fun n => map (attributeValue (termOf n) other) fun more u value => ?_
    exact ⟨t.lexeme, (t' :: more).map Token.lexeme, rfl, spelled, .inr ⟨u, rfl, value.spelled⟩⟩

theorem optionalNumeral (word : String) (default : Nat) :
    Takes input (Reader.optionalNumeral word default) fun taken n =>
      SpelledCount default n (taken.map Token.lexeme) := by
  refine ahead ?_ ?_
  · intro close stop
    exact pure (.inl ⟨rfl, rfl⟩)
  · intro t other
    refine mono (numeralOf t) ?_
    rintro _ n ⟨rfl, counts⟩
    exact .inr ⟨t.lexeme, rfl, counts⟩

theorem stringLiteral (word : String) :
    Takes input (Reader.stringLiteral word) fun taken a =>
      ∃ content pos, a = .string content pos ∧ taken.map Token.lexeme = [.string content] := by
  refine next_bind fun t => none_bind (atom t) fun a ⟨is, _⟩ => ?_
  split
  · exact pure ⟨_, _, rfl, spelled_of_atom is nofun⟩
  · exact refuse _ _

theorem listOf {word : String} {item : Token → Reader α} {spells : α → List Lexeme → Prop}
    (each : ∀ t : Token,
      Takes input (item t) fun more a => spells a ((t :: more).map Token.lexeme)) :
    Takes input (Reader.listOf word item) fun taken (as, _) =>
      ∃ inner, taken.map Token.lexeme = parenthesised inner ∧ SpelledAll spells as inner := by
  refine opening_bind fun start opens => remaining_bind fun n => ?_
  refine mono (untilClosing (fun t _ => each t) n) ?_
  rintro _ ⟨as, close⟩ ⟨inner, rfl, closes, all⟩
  exact ⟨inner.map Token.lexeme, by simp [parenthesised, opens, closes], all⟩

/-! ## Commands -/

/-- A command with no arguments has its word alone. -/
theorem bare {word : String} {c : Command} (is : Reader.bare? word = some c) :
    c.name = word ∧ c.ArgumentsSpelled [] := by
  unfold Reader.bare? at is
  split at is <;> cases is <;> exact ⟨rfl, rfl⟩

/-- **The arguments of a command take their spelling.** -/
theorem arguments {word : String} {r : Reader Command} (is : Reader.arguments? word = some r) :
    Takes input r fun taken c =>
      c.name = word ∧ c.ArgumentsSpelled (taken.map Token.lexeme) := by
  have sort_at (t : Token) : Takes input (do Reader.sortOf [] (← Reader.remaining) t)
      fun more σ => σ.Spelled [] ((t :: more).map Token.lexeme) :=
    remaining_bind fun n => mono (sortOf [] n t) fun _ _ located => located.spelled
  have term_at (t : Token) : Takes input (do Reader.termOf (← Reader.remaining) t)
      fun more a => a.Spelled ((t :: more).map Token.lexeme) :=
    remaining_bind fun n => mono (termOf n t) fun _ _ located => located.spelled
  unfold Reader.arguments? at is
  split at is <;> first | cases is | skip
  · -- assert
    exact map whole_term fun taken t spelled => ⟨rfl, spelled⟩
  · -- declare-const
    refine symbol_bind fun t s names _ => map (sort_spelled []) fun taken σ spelled => ?_
    exact ⟨rfl, t.lexeme, _, rfl, names, spelled⟩
  · -- declare-fun
    refine symbol_bind fun t s names _ => bind (listOf sort_at) ?_
    rintro taken ⟨args, close⟩ ⟨inner, between, all⟩
    refine map (sort_spelled []) fun more result spelled => ?_
    refine ⟨rfl, t.lexeme, inner, more.map Token.lexeme, ?_, names, sorts_spelled.mpr all, spelled⟩
    simp [between]
  · -- declare-sort
    refine symbol_bind fun t s names _ => map (optionalNumeral _ _) fun taken n counted => ?_
    exact ⟨rfl, t.lexeme, _, rfl, names, counted⟩
  · -- define-fun
    refine symbol_bind fun t s names _ => bind (declarations _) ?_
    rintro taken ds ⟨inner, between, all, -⟩
    refine bind (sort_spelled []) fun more result spelled => ?_
    refine map whole_term fun last body body_spelled => ?_
    refine ⟨rfl, t.lexeme, inner, more.map Token.lexeme, last.map Token.lexeme, ?_, names, all,
      spelled, body_spelled⟩
    simp [between]
  · -- define-sort
    have name_at (t : Token) : TakesNone input (Reader.symbolOf t) fun p => t.lexeme.Names p.name :=
      mono (symbolOf t) fun _ _ ⟨still, names, _⟩ => ⟨still, names⟩
    refine symbol_bind fun t s names _ => bind (listOf fun t => one (name_at t)) ?_
    rintro taken ⟨parameters, close⟩ ⟨inner, between, all⟩
    refine map (sort_spelled _) fun more definition spelled => ?_
    refine ⟨rfl, t.lexeme, inner, more.map Token.lexeme, ?_, names, spelledEach_iff.mpr all,
      spelled⟩
    simp [between]
  · -- echo
    refine map (stringLiteral _) ?_
    rintro taken _ ⟨content, pos, rfl, spelled⟩
    exact ⟨rfl, spelled⟩
  · -- get-info
    exact keyword_bind fun t k spelled => pure ⟨rfl, t.lexeme, rfl, spelled⟩
  · -- get-option
    exact keyword_bind fun t k spelled => pure ⟨rfl, t.lexeme, rfl, spelled⟩
  · -- get-value
    refine last_bind (listOf term_at) ?_
    rintro taken ⟨terms, close⟩ ⟨inner, between, all⟩
    dsimp only
    split
    · exact refuse _ _
    · next some =>
      exact pure ⟨rfl, rfl, by simpa using some, inner, between, terms_spelled.mpr all⟩
  · -- pop
    exact map (optionalNumeral _ _) fun taken n counted => ⟨rfl, counted⟩
  · -- push
    exact map (optionalNumeral _ _) fun taken n counted => ⟨rfl, counted⟩
  · -- set-info
    refine map (setting _ _) ?_
    rintro taken ⟨k, v⟩ ⟨l, vs, whole, spelled, ⟨-, rfl, rfl⟩ | ⟨u, rfl, value⟩⟩
    · exact ⟨rfl, l, whole, spelled⟩
    · exact ⟨rfl, l, vs, whole, spelled, value⟩
  · -- set-logic
    exact symbol_bind fun t s names _ => pure ⟨rfl, t.lexeme, rfl, names⟩
  · -- set-option
    refine map (setting _ _) ?_
    rintro taken ⟨k, v⟩ ⟨l, vs, whole, spelled, ⟨no, -⟩ | ⟨u, rfl, value⟩⟩
    · cases no
    · exact ⟨rfl, l, vs, whole, spelled, value⟩
  · obtain ⟨c, found, rfl⟩ := Option.map_eq_some_iff.mp is
    exact pure (bare found)

/-- The word of a command begins with a letter. -/
theorem letter_of_arguments? {word : String} {r : Reader Command}
    (is : Reader.arguments? word = some r) : word.toList.head?.any Char.isLower = true := by
  unfold Reader.arguments? at is
  split at is <;> first | rfl | skip
  obtain ⟨c, found, -⟩ := Option.map_eq_some_iff.mp is
  unfold Reader.bare? at found
  split at found <;> first | rfl | cases found

/-- A token that names a command is an atom. -/
theorem plain_of_argumentsAt? {name : Token} {r : Reader Command}
    (is : Reader.argumentsAt? name = some r) :
    ∃ word, name.lexeme = .plain word ∧ Reader.arguments? word = some r := by
  unfold Reader.argumentsAt? Token.text at is
  cases lexeme : name.lexeme with
  | plain word =>
    rw [lexeme] at is
    exact ⟨word, rfl, is⟩
  | quoted =>
    rw [lexeme] at is
    cases is
  | opening | closing | string =>
    rw [lexeme] at is
    have letter := letter_of_arguments? is
    simp [Lexeme.text, Text.Quoted.encode] at letter

theorem command? : Takes input Reader.command? fun taken c? =>
    match c? with
    | none => taken = []
    | some c => c.Spelled (taken.map Token.lexeme) := by
  refine bind next? ?_
  rintro taken start? same
  split
  · exact pure (by simpa using same)
  · next start =>
    cases same
    split
    · next opens =>
      refine next_bind fun name => ?_
      split
      · exact fail _
      · next r is =>
        obtain ⟨word, plain, known⟩ := plain_of_argumentsAt? is
        refine bind (arguments known) fun inner c ⟨named, spelled⟩ => ?_
        refine closing_bind fun close closes => pure ⟨inner.map Token.lexeme, ?_, spelled⟩
        simp [parenthesised, opens, plain, named, closes]
    · exact refuse _ _

/-- **A script takes the spelling of its commands.** -/
theorem commands (bound : Nat) : Takes input (Reader.commands bound) fun taken cs =>
    SpelledAll Command.Spelled cs (taken.map Token.lexeme) := by
  induction bound with
  | zero => exact pure rfl
  | succ bound ih =>
    refine bind command? fun taken c? here => ?_
    split
    · exact pure (by simp [here, SpelledAll])
    · next c =>
      refine map ih fun more cs later => ?_
      exact ⟨taken.map Token.lexeme, more.map Token.lexeme, by simp, here, later⟩

theorem script : Takes input (do Reader.commands ((← Reader.remaining) + 1)) fun taken cs =>
    SpelledAll Command.Spelled cs (taken.map Token.lexeme) :=
  remaining_bind fun n => commands (n + 1)

end Takes

/-- A command takes some tokens. -/
theorem length_lt_of_command {input : Input} {ts left : List Token} {c : Command}
    (found : command? input ts = .done (some c) left) : left.length < ts.length := by
  obtain ⟨taken, rfl, args, spelled, -⟩ := Takes.command? _ _ _ found
  have some : 0 < taken.length := by
    rw [← List.length_map (f := Token.lexeme), spelled]
    exact Nat.zero_lt_succ _
  rw [List.length_append]
  omega

end SmtSession.Reader
