import SmtSession.Execution
import SmtSession.Proofs.Dialect.QuotedStrings

/-!
# Values that are printed

**An option and a piece of information are kept as text**, and where they are asked for, that
text is printed. `Store.Reads` says of a printed text and a term that the text gives this term
when the key is set to it.

An atom is printed as it is written, but for a symbol that stood between bars: these are lost.
So an atom is read back unless it is a symbol whose name is no word (`Store.reads_atom_iff`).
Any other expression is printed by the dialect of the input language, as the desugared term; if
it is legible, it is read back as that.
-/

namespace SmtSession

/-! ## Atoms -/

namespace Term

/-- The term is a literal. -/
def IsLiteral : Term → Prop
  | .numeral _ _ | .decimal _ _ | .hex _ _ | .binary _ _ | .string _ _ => True
  | _ => False

/-- The term is one token: a literal, a symbol or a keyword. -/
def IsAtom : Term → Prop
  | .symbol _ | .keyword _ => True
  | t => t.IsLiteral

/-- A literal that is spelled at all can be written. -/
theorem legible_of_literal {t : Term} {ls : List Lexeme} (spelled : t.Spelled ls)
    (literal : t.IsLiteral) : t.Legible := by
  cases t with
  | numeral value =>
    obtain ⟨l, -, counts⟩ := spelled
    cases l with
    | plain text =>
      obtain ⟨n, -, rfl⟩ := counts
      exact Int.natCast_nonneg n
    | _ => cases counts
  | decimal text =>
    obtain ⟨-, is⟩ := spelled
    have told := AtomClass.tells_ofChars text.toList
    rw [show AtomClass.ofChars text.toList = .decimal from is] at told
    exact told
  | hex digits | binary digits =>
    obtain ⟨l, -, is⟩ := spelled
    cases l with
    | plain text =>
      have told := AtomClass.tells_ofChars text.toList
      rw [show AtomClass.ofChars text.toList = _ from is] at told
      exact told
    | _ => cases is
  | string => trivial
  | _ => cases literal

end Term

/-! ## What is printed spells a value -/

/-- The text of an expression that spells lexemes is a layout of them. -/
theorem SExpr.Spells.laid {e : SExpr} {ls : List Lexeme} (spells : e.Spells ls) :
    Laid ls e.text.toList :=
  (spells [] nofun).laid_alone

/-- The term that a value stands for where it is read; an absent one is the symbol `true`. -/
def Setting.StandsFor (v : Setting) (t : Term) : Prop :=
  v = .term t ∨ v = .absent ∧ t = .symbol { name := "true" }

theorem Setting.StandsFor.text {v : Setting} {t : Term} (stands : v.StandsFor t) :
    v.text = t.settingText := by
  rcases stands with rfl | ⟨rfl, rfl⟩ <;> rfl

/-- A name that is a symbol as it is written. Where a value may stand, a reserved word is one. -/
structure IsWord (name : String) : Prop where
  atom : Lexeme.IsAtomText name.toList
  symbol : AtomClass.ofChars name.toList = .symbol

instance (name : String) : Decidable (IsWord name) :=
  decidable_of_iff (Lexeme.IsAtomText name.toList ∧ AtomClass.ofChars name.toList = .symbol)
    ⟨fun is => ⟨is.1, is.2⟩, fun is => ⟨is.1, is.2⟩⟩

namespace Term

/-- **A text spells a term** where a value may stand. -/
def PrintedAs (t : Term) (printed : String) : Prop :=
  ∃ (e : SExpr) (ls : List Lexeme), e.text = printed ∧ e.Spells ls ∧ (Setting.term t).Spelled ls

theorem printedAs_word {s : Symbol} (word : IsWord s.name) : (symbol s).PrintedAs s.name :=
  ⟨.atom s.name, [.plain s.name], rfl, SExpr.spells_atom word.atom rfl,
    .inr ⟨_, rfl, rfl, word.symbol⟩⟩

theorem printedAs_keyword {k : Keyword} (shaped : k.Shaped) : (keyword k).PrintedAs k.name :=
  ⟨.atom k.name, [.plain k.name], rfl, SExpr.spells_atom shaped.2 rfl,
    .inl ⟨rfl, (Keyword.spelled_of_shaped shaped).2⟩⟩

/-- Only a keyword is printed otherwise than the dialect writes it, which refuses it. -/
theorem settingText_eq_render {t : Term} (other : ∀ k, t ≠ .keyword k) :
    t.settingText = Dialect.smtLib.render t := by
  cases t with
  | keyword k => exact absurd rfl (other k)
  | _ => rfl

theorem Legible.ne_keyword {t : Term} (legible : t.Legible) (k : Keyword) : t ≠ .keyword k := by
  rintro rfl
  cases legible

/-- A legible term is printed as what it is desugared to. -/
theorem Legible.printedAs {t : Term} {printed : String} (legible : t.Legible)
    (text : t.settingText = .ok printed) : t.desugar.PrintedAs printed := by
  rw [settingText_eq_render legible.ne_keyword] at text
  obtain ⟨e, spelled, same⟩ := Dialect.bind_eq_ok.mp text
  obtain ⟨admitted, rfl⟩ := Dialect.spell_eq_write Dialect.smtLib_sharesOperators t
    (Legible.proper t legible) spelled
  have transcribed := transcribed_desugar t legible admitted
  exact ⟨_, _, Except.ok.inj same, transcribed.spells,
    .inl (written_of_shaped _ transcribed.shaped).1⟩

/-- What is the same as the desugared term without positions is printed like the term. -/
theorem Legible.settingText_of_bare {t u : Term} {printed : String} (legible : t.Legible)
    (text : t.settingText = .ok printed) (same : u.bare = t.desugar.bare) :
    u.settingText = .ok printed := by
  rw [settingText_eq_render legible.ne_keyword] at text
  obtain ⟨e, spelled, printed_is⟩ := Dialect.bind_eq_ok.mp text
  have again := Dialect.spell_of_bare same (Dialect.spell_desugar Dialect.smtLib_sharesOperators t
    (Legible.proper t legible) spelled)
  have other (k : Keyword) : u ≠ .keyword k := by
    rintro rfl
    cases again
  rw [settingText_eq_render other, Dialect.render, again]
  exact printed_is

end Term

/-! ## Reading it as the value of a key -/

/-- The two tables that a session keeps for its user. -/
inductive Store
  | options
  | info

namespace Store

/-- The command that sets a key. -/
def set : Store → Keyword → Setting → Command
  | options => .setOption
  | info => .setInfo

/-- The command that asks for a key. -/
def get : Store → Keyword → Command
  | options => .getOption
  | info => .getInfo

/-- The word of the command that sets a key. -/
def word : Store → String
  | options => "set-option"
  | info => "set-info"

/-- The command that sets a key to what was printed. -/
def script (store : Store) (key printed : String) : String :=
  "(" ++ store.word ++ " " ++ key ++ " " ++ printed ++ ")"

/-- **A printed text gives a term**: the command that sets the key to it is read as the one that
sets it to the term, but for positions. -/
def Reads (store : Store) (k : Keyword) (printed : String) (t : Term) : Prop :=
  ∀ location, ∃ c, readScript ⟨store.script k.name printed, location⟩ = .ok [c] ∧
    c.bare = (store.set k (.term t)).bare

variable {store : Store} {k : Keyword} {printed : String} {t u : Term}

theorem isAtomText_word (store : Store) : Lexeme.IsAtomText store.word.toList := by
  cases store <;> decide

/-- What is a setting without positions is one with them. -/
theorem exists_of_bare {c : Command} (same : c.bare = (store.set k (.term t)).bare) :
    ∃ k' t', c = store.set k' (.term t') ∧ k'.bare = k.bare ∧ t'.bare = t.bare := by
  cases store with
  | options =>
    cases c with
    | setOption k' v =>
      obtain ⟨keys, values⟩ := Command.setOption.inj same
      cases v with
      | term t' => exact ⟨k', t', rfl, keys, Setting.term.inj values⟩
      | _ => cases values
    | _ => cases same
  | info =>
    cases c with
    | setInfo k' v =>
      obtain ⟨keys, values⟩ := Command.setInfo.inj same
      cases v with
      | term t' => exact ⟨k', t', rfl, keys, Setting.term.inj values⟩
      | _ => cases values
    | _ => cases same

theorem spelled_set {ls : List Lexeme} (key : k.Spelled (.plain k.name))
    (spelled : (Setting.term t).Spelled ls) :
    (store.set k (.term t)).Spelled (parenthesised (.plain store.word :: .plain k.name :: ls)) := by
  cases store <;> exact ⟨_, rfl, _, _, rfl, key, spelled⟩

theorem set_spelled {ls : List Lexeme} (spelled : (store.set k (.term t)).Spelled ls) :
    ∃ vs, ls = parenthesised (.plain store.word :: .plain k.name :: vs) ∧
      k.Spelled (.plain k.name) ∧ (Setting.term t).Spelled vs := by
  cases store <;>
  · obtain ⟨_, rfl, _, vs, rfl, ⟨rfl, key⟩, spelled⟩ := spelled
    exact ⟨vs, rfl, ⟨rfl, key⟩, spelled⟩

/-- What spells a term is read as it. -/
theorem reads_of_printedAs (shaped : k.Shaped) (prints : t.PrintedAs printed) :
    store.Reads k printed t := by
  intro location
  obtain ⟨e, ls, rfl, spells, spelled⟩ := prints
  have each : List.Forall₂ SExpr.Spells [.atom store.word, .atom k.name, e]
      [[.plain store.word], [.plain k.name], ls] :=
    .cons (SExpr.spells_atom store.isAtomText_word rfl)
      (.cons (SExpr.spells_atom shaped.2 rfl) (.cons spells .nil))
  have flat : [[.plain store.word], [.plain k.name], ls].flatten =
      .plain store.word :: .plain k.name :: ls := by simp
  have whole := SExpr.spells_list_of_eq each flat
  have text : (SExpr.list [.atom store.word, .atom k.name, e]).text =
      store.script k.name e.text := by
    simp [SExpr.text, SExpr.texts, script, String.intercalate_cons_cons, String.append_assoc]
  have laid := whole.laid
  rw [text] at laid
  have command : (store.set k (.term t)).Spelled _ :=
    spelled_set (Keyword.spelled_of_shaped shaped) spelled
  have all : SpelledAll Command.Spelled [store.set k (.term t)]
      (parenthesised (.plain store.word :: .plain k.name :: ls)) :=
    ⟨_, [], (List.append_nil _).symm, command, rfl⟩
  obtain ⟨-, cs, read, same⟩ := readScript_of_spelled all laid location
  obtain ⟨c, rfl, bare⟩ := List.map_eq_singleton_iff.mp same
  exact ⟨c, read, bare⟩

theorem Reads.of_bare (reads : store.Reads k printed t) (same : t.bare = u.bare) :
    store.Reads k printed u := by
  have one : (store.set k (.term t)).bare = (store.set k (.term u)).bare := by
    cases store <;> simp [set, Command.bare, Setting.bare, same]
  intro location
  obtain ⟨c, read, bare⟩ := reads location
  exact ⟨c, read, bare.trans one⟩

/-- A text gives one term at most, but for positions. -/
theorem Reads.unique (first : store.Reads k printed t) (second : store.Reads k printed u) :
    t.bare = u.bare := by
  obtain ⟨c, read, bare⟩ := first none
  obtain ⟨c', read', bare'⟩ := second none
  have one : c = c' := List.singleton_inj.mp (Except.ok.inj (read.symm.trans read'))
  have same := bare.symm.trans ((congrArg Command.bare one).trans bare')
  cases store with
  | options => exact Setting.term.inj (Command.setOption.inj same).2
  | info => exact Setting.term.inj (Command.setInfo.inj same).2

end Store

/-! ## Symbols whose bars are lost -/

theorem Text.Barred.length_le_escape (cs : List Char) : cs.length ≤ (escape cs).length := by
  induction cs with
  | nil => exact Nat.le_refl 0
  | cons c cs ih =>
    rw [escape]
    split <;>
    · simp only [List.length_cons]
      omega

/-- Tokens take as many characters as their lexemes have, or more. -/
theorem Token.Placed.length_le {tail : List Char} {o : Nat} {ts : List Token} {text : List Char}
    (placed : Placed tail o ts text) :
    ((ts.map Token.lexeme).flatMap Lexeme.chars).length ≤ text.length := by
  induction placed with
  | ended _ => exact Nat.zero_le _
  | token _ _ _ _ _ _ ih =>
    simp only [List.map_cons, List.flatMap_cons, List.length_append]
    omega

/-- **A name in front of a parenthesis is read as itself only if it is a word**: with bars it
would be longer than it is. -/
theorem isWord_of_tokens {name : String} {l : Lexeme} {o : Nat} (names : l.Names name)
    (tokens : (Token.tokenizeFrom o (name.toList ++ [')'])).list.map Token.lexeme =
      [l, .closing]) : IsWord name := by
  obtain ⟨front, tail, whole, placed, -⟩ := Token.exists_placed o (name.toList ++ [')'])
  have room := placed.length_le
  rw [tokens] at room
  have length := congrArg List.length whole
  obtain ⟨t, is, same⟩ := List.mem_map.mp (tokens ▸ List.mem_cons_self (a := l))
  have writable := placed.writable t is
  rw [same] at writable
  cases l with
  | plain text =>
    obtain ⟨rfl, class_⟩ := names
    exact ⟨writable, class_⟩
  | quoted content =>
    obtain rfl : content = name := names
    have escaped := Text.Barred.length_le_escape content.toList
    simp [Lexeme.chars] at room length
    omega
  | opening | closing | string => cases names

namespace Store

variable {store : Store} {k : Keyword}

/-- What a command that sets a key begins with. -/
theorem lexemes_script (store : Store) (shaped : k.Shaped) (printed : String)
    (location : Option String) :
    ∃ o, (Source.tokenize ⟨store.script k.name printed, location⟩).list.map Token.lexeme =
      .opening :: .plain store.word :: .plain k.name ::
        (Token.tokenizeFrom o (printed.toList ++ [')'])).list.map Token.lexeme := by
  have chars : (store.script k.name printed).toList = Lexeme.opening.chars ++
      ((Lexeme.plain store.word).chars ++ ' ' :: ((Lexeme.plain k.name).chars ++
        ' ' :: (printed.toList ++ [')']))) := by
    simp [script, String.toList_append, Lexeme.chars]
  unfold Source.tokenize
  rw [chars, Token.tokenizeFrom_lexeme (l := .opening) trivial trivial,
    Token.tokenizeFrom_space (l := .plain store.word) store.isAtomText_word,
    Token.tokenizeFrom_space (l := .plain k.name) shaped.2]
  exact ⟨_, rfl⟩

/-- **A symbol is read back only if its name is a word.** -/
theorem Reads.isWord {s : Symbol} (shaped : k.Shaped)
    (reads : store.Reads k s.name (.symbol s)) : IsWord s.name := by
  obtain ⟨c, read, bare⟩ := reads none
  obtain ⟨⟨ls, _, split, spelled, rfl⟩, -⟩ := taken_of_readAll read Reader.Takes.script
  obtain ⟨o, lexemes⟩ := lexemes_script store shaped s.name none
  obtain ⟨k', t, rfl, -, same⟩ := exists_of_bare bare
  obtain ⟨vs, rfl, -, value⟩ := set_spelled spelled
  rw [List.append_nil, lexemes] at split
  cases t with
  | symbol s' =>
    have name : s'.name = s.name := (Symbol.mk.inj (Term.symbol.inj same)).1
    have one : ∃ l : Lexeme, vs = [l] ∧ l.Names s'.name := by
      rcases value with ⟨l, rfl, names⟩ | ⟨l, rfl, names⟩
      · exact ⟨l, rfl, names.1⟩
      · exact ⟨l, rfl, names⟩
    obtain ⟨l, rfl, names⟩ := one
    rw [name] at names
    simp only [parenthesised, List.cons_append, List.cons.injEq] at split
    exact isWord_of_tokens names split.2.2.2
  | binding b => cases b; cases same
  | attr a => obtain ⟨_, v⟩ := a; cases v <;> cases same
  | _ => cases same

/-- A value that can be read stands for a term, which is spelled in its place. -/
theorem exists_of_spelled {v : Setting} {ls : List Lexeme} (spelled : (store.set k v).Spelled ls)
    (writable : ∀ l ∈ ls, l.Writable) :
    k.Shaped ∧ ∃ t vs, v.StandsFor t ∧ (Setting.term t).Spelled vs ∧ ∀ l ∈ vs, l.Writable := by
  have key (spelled : k.Spelled (.plain k.name)) (is : .plain k.name ∈ ls) : k.Shaped :=
    ⟨AtomClass.colon_of_ofChars spelled.2, writable (.plain k.name) is⟩
  cases v with
  | absent =>
    cases store with
    | options =>
      obtain ⟨_, -, _, _, -, -, none⟩ := spelled
      cases none
    | info =>
      obtain ⟨_, rfl, _, rfl, rfl, class_⟩ := spelled
      have word : IsWord "true" := by decide
      refine ⟨key ⟨rfl, class_⟩ (by simp [parenthesised]), _, [.plain "true"], .inr ⟨rfl, rfl⟩,
        .inr ⟨_, rfl, rfl, word.symbol⟩, ?_⟩
      exact List.forall_mem_singleton.mpr word.atom
  | term t =>
    obtain ⟨vs, rfl, key_spelled, value⟩ := set_spelled spelled
    refine ⟨key key_spelled (by simp [parenthesised]), t, vs, .inl rfl, value, fun l is => ?_⟩
    exact writable l (by simp [parenthesised, is])
  | flag | number | verbatim =>
    cases store <;>
    · obtain ⟨_, -, _, _, -, -, none⟩ := spelled
      cases none

/-- **An atom is read back unless it is a symbol whose name is no word.** -/
theorem reads_atom_iff {t : Term} {printed : String} {ls : List Lexeme} (shaped : k.Shaped)
    (spelled : (Setting.term t).Spelled ls) (writable : ∀ l ∈ ls, l.Writable) (atom : t.IsAtom)
    (text : t.settingText = .ok printed) :
    store.Reads k printed t ↔ ∀ s, t = .symbol s → IsWord s.name := by
  cases t with
  | symbol s =>
    cases text
    constructor
    · rintro reads _ ⟨⟩
      exact reads.isWord shaped
    · intro word
      exact reads_of_printedAs shaped (Term.printedAs_word (word s rfl))
  | keyword key =>
    cases text
    obtain ⟨rfl, class_⟩ | word := spelled
    · have key_shaped : key.Shaped :=
        ⟨AtomClass.colon_of_ofChars class_, writable _ List.mem_cons_self⟩
      exact ⟨fun _ _ other => (by cases other),
        fun _ => reads_of_printedAs shaped (Term.printedAs_keyword key_shaped)⟩
    · cases word
  | apply | letIn | attributed | quantified | qualified | indexed | error | sort | declaration
  | binding | attr => cases atom
  | _ =>
    obtain spelled | word := spelled
    · have legible := Term.legible_of_literal spelled atom
      exact ⟨fun _ _ other => (by cases other),
        fun _ => reads_of_printedAs shaped (legible.printedAs text)⟩
    · cases word

/-- What it is for a text to be printed of a term that was read as the value of a key. -/
structure Printed (store : Store) (k : Keyword) (t : Term) (printed : String) : Prop where
  /-- A literal, a symbol or a keyword is read back, but for a symbol that needs its bars. -/
  atom : t.IsAtom → (store.Reads k printed t ↔ ∀ s, t = .symbol s → IsWord s.name)
  /-- Any other expression is read back as what it is desugared to … -/
  expression : t.Legible → store.Reads k printed t.desugar
  /-- … and so as itself when there is nothing to desugar, and only then. -/
  itself : t.Legible → (store.Reads k printed t ↔ t.desugar.bare = t.bare)
  /-- What is read back is printed as the same text again. -/
  stable : t.Legible → ∀ u, store.Reads k printed u → u.settingText = .ok printed

theorem printed_of_spelled {t : Term} {printed : String} {ls : List Lexeme} (shaped : k.Shaped)
    (spelled : (Setting.term t).Spelled ls) (writable : ∀ l ∈ ls, l.Writable)
    (text : t.settingText = .ok printed) : store.Printed k t printed := by
  have expression (legible : t.Legible) : store.Reads k printed t.desugar :=
    reads_of_printedAs shaped (legible.printedAs text)
  refine ⟨fun atom => reads_atom_iff shaped spelled writable atom text, expression, ?_, ?_⟩
  · refine fun legible => ⟨fun reads => (expression legible).unique reads, fun same => ?_⟩
    exact (expression legible).of_bare same
  · intro legible u reads
    exact legible.settingText_of_bare text (reads.unique (expression legible))

end Store

end SmtSession
