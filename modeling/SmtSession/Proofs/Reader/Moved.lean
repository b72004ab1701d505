import SmtSession.Proofs.Reader.Reads
import SmtSession.Proofs.Reader.Relocated

/-!
# Readers at another place

**What is read does not depend on where it stands.** When tokens are moved to other offsets of
another text, what is read of them is the same with its positions moved, and an error is the
same with its position moved. `Elsewhere` has the other place, and `Moves` says so of a reader.

At the other place more tokens may follow, or the text may end in another way. Then what has
been read is still read, with more tokens left; but where the reading failed for want of tokens,
it can now go on, so nothing is said of a failure. A reader that finds the end of the input must
not be asked there, for it would find something else.

The rules put two readers together in step. There is one lemma for each reader that its
callers go by; the last one is for commands.
-/

namespace SmtSession

/-- The position that stands for one, in another text. -/
def Pos.moved (offset : Nat → Nat) (source : Source) (p : Pos) : Pos :=
  ⟨offset p.start, offset p.stop, some source⟩

/-- The token at the offsets that stand for its own. -/
def Token.moved (offset : Nat → Nat) (t : Token) : Token :=
  ⟨t.lexeme, offset t.start, offset t.stop⟩

/-- The end at the offsets that stand for its own. -/
def Ending.moved (offset : Nat → Nat) : Ending → Ending
  | .finished here => .finished (offset here)
  | .unknownEscape start stop => .unknownEscape (offset start) (offset stop)
  | .unclosedSymbol start stop => .unclosedSymbol (offset start) (offset stop)

/-- The command with its positions in another text. -/
def Command.moved (offset : Nat → Nat) (source : Source) : Command → Command :=
  Command.relocate (Option.map (Pos.moved offset source))

namespace Reader

/-- The error with its position in another text. -/
def Error.moved (offset : Nat → Nat) (source : Source) : Error → Error
  | .malformed cause pos => .malformed cause (pos.moved offset source)
  | .unknownCommand name => .unknownCommand name

/-- Where else the tokens of a text stand: in another text, at other offsets, in front of more
tokens. -/
structure Elsewhere (here : Input) where
  there : Input
  offset : Nat → Nat
  more : List Token

namespace Elsewhere

variable {here : Input} (π : Elsewhere here)

/-- The position there. -/
def pos : Pos → Pos :=
  Pos.moved π.offset π.there.source

/-- The position there of a part of a tree. -/
def part : Option Pos → Option Pos :=
  Option.map π.pos

/-- The token there. -/
def token : Token → Token :=
  Token.moved π.offset

/-- The tokens there, and what follows them. -/
def tokens (ts : List Token) : List Token :=
  ts.map π.token ++ π.more

/-- The error there. -/
def error : Error → Error :=
  Error.moved π.offset π.there.source

/-- There are no more tokens, and they end as they do here. -/
def Ends : Prop :=
  π.more = [] ∧ π.there.ending = here.ending.moved π.offset

/-- The items of a list there, and the token behind them. -/
def items (g : α → β) : List α × Token → List β × Token
  | (as, close) => (as.map g, π.token close)

theorem lexeme_token (t : Token) : (π.token t).lexeme = t.lexeme := rfl

theorem length_tokens (ts : List Token) : (π.tokens ts).length = π.more.length + ts.length := by
  rw [tokens, List.length_append, List.length_map, Nat.add_comm]

theorem map_lexeme_tokens (ts : List Token) :
    (π.tokens ts).map Token.lexeme = ts.map Token.lexeme ++ π.more.map Token.lexeme := by
  rw [tokens, List.map_append, List.map_map]
  rfl

theorem malformed?_eq (ends : π.Ends) : π.there.malformed? = here.malformed?.map π.error := by
  unfold Input.malformed?
  rw [ends.2]
  cases here.ending <;> rfl

end Elsewhere

/-- The value is read there too, with the image `g`; a failure is the same there if the tokens
end as they do here. -/
inductive Outcome.Moved {here : Input} (π : Elsewhere here) (g : α → β) :
    Outcome α → Outcome β → Prop
  | done (a : α) (rest : List Token) : Moved π g (.done a rest) (.done (g a) (π.tokens rest))
  | failed {o : Outcome β} (e : Error) (rest : List Token)
      (same : π.Ends → o = .failed (π.error e) (π.tokens rest)) :
      Moved π g (.failed e rest) o

/-- **The second reader reads there what the first one reads here.** -/
def Moves {here : Input} (π : Elsewhere here) (g : α → β) (r : Reader α) (r' : Reader β) : Prop :=
  ∀ ts : List Token, Outcome.Moved π g (r here ts) (r' π.there (π.tokens ts))

namespace Moves

variable {here : Input} {π : Elsewhere here} {g : α → β} {h : γ → δ} {t u : Token}

/-! ## Rules -/

theorem pure {a : α} {b : β} (image : g a = b) : Moves π g (Pure.pure a) (Pure.pure b) :=
  image ▸ fun ts => .done a ts

theorem bind {r : Reader α} {r' : Reader β} {f : α → Reader γ} {f' : β → Reader δ}
    (first : Moves π g r r') (next : ∀ a, Moves π h (f a) (f' (g a))) :
    Moves π h (r >>= f) (r' >>= f') := by
  intro ts
  have outcomes := first ts
  generalize found : r here ts = outcome, found' : r' π.there (π.tokens ts) = outcome'
    at outcomes
  cases outcomes with
  | done a rest =>
    rw [bind_of_done found, bind_of_done found']
    exact next a rest
  | failed e rest same =>
    rw [bind_of_failed found]
    exact .failed e rest fun ends => bind_of_failed (found'.trans (same ends))

/-- Both readers decide in the same way. -/
theorem ite {p q : Prop} [Decidable p] [Decidable q] {r s : Reader α} {r' s' : Reader β}
    (same : p ↔ q) (yes : Moves π g r r') (no : Moves π g s s') :
    Moves π g (if p then r else s) (if q then r' else s') := by
  by_cases is : p
  · rwa [if_pos is, if_pos (same.mp is)]
  · rwa [if_neg is, if_neg (mt same.mpr is)]

theorem unknownCommand (name : String) :
    Moves π g (fail (.unknownCommand name)) (fail (.unknownCommand name)) :=
  fun ts => .failed _ ts fun _ => rfl

theorem refuse (cause : Cause) :
    Moves π g (Reader.refuse cause t) (Reader.refuse cause (π.token t)) :=
  fun ts => .failed _ ts fun _ => rfl

theorem refuseSpan (cause : Cause) :
    Moves π g (Reader.refuseSpan cause t u) (Reader.refuseSpan cause (π.token t) (π.token u)) :=
  fun ts => .failed _ ts fun _ => rfl

theorem posOf : Moves π π.pos (Reader.posOf t) (Reader.posOf (π.token t)) :=
  fun ts => .done _ ts

theorem span : Moves π π.pos (Reader.span t u) (Reader.span (π.token t) (π.token u)) :=
  fun ts => .done _ ts

theorem remaining : Moves π (π.more.length + ·) Reader.remaining Reader.remaining := by
  intro ts
  have counted : Reader.remaining π.there (π.tokens ts) =
      .done (π.more.length + ts.length) (π.tokens ts) := by
    rw [← π.length_tokens]
    rfl
  rw [counted]
  exact .done ts.length ts

/-! ## Single tokens -/

/-- The tokens are used up, and there they are too if they end as they do here. -/
theorem used_up {place : Place} {ts : List Token} {o : Outcome β}
    (same : π.Ends → o = Reader.endOfInput place π.there (π.tokens ts)) :
    Outcome.Moved π g (Reader.endOfInput place here ts) o := by
  unfold Reader.endOfInput
  cases broken : here.malformed? with
  | some e =>
    refine .failed e ts fun ends => ?_
    simp only [same ends, Reader.endOfInput, π.malformed?_eq ends, broken, Option.map_some]
  | none =>
    refine .failed _ ts fun ends => ?_
    have offset : π.there.ending.offset = π.offset here.ending.offset := by
      rw [ends.2]
      cases here.ending <;> rfl
    simp only [same ends, Reader.endOfInput, π.malformed?_eq ends, broken, Option.map_none, offset]
    rfl

theorem endOfInput {place : Place} {r : Reader β}
    (same : π.Ends → r = Reader.endOfInput place) :
    Moves π g (Reader.endOfInput place) r :=
  fun _ => used_up fun ends => by rw [same ends]

theorem next (place : Place) : Moves π π.token (Reader.next place) (Reader.next place)
  | t :: ts => .done t ts
  | [] => used_up fun ends => by
    rw [Elsewhere.tokens, ends.1]
    rfl

theorem peek (place : Place) : Moves π π.token (Reader.peek place) (Reader.peek place)
  | t :: ts => .done t (t :: ts)
  | [] => used_up fun ends => by
    rw [Elsewhere.tokens, ends.1]
    rfl

/-- The next token, where the end of the tokens is the end there too. -/
theorem next?_bind {f : Option Token → Reader α} {f' : Option Token → Reader β}
    (none : Moves π g (f none) (f' none))
    (some : ∀ t, Moves π g (f (some t)) (f' (some (π.token t)))) {ts : List Token}
    (last : ts = [] → π.Ends) :
    Outcome.Moved π g ((Reader.next? >>= f) here ts)
      ((Reader.next? >>= f') π.there (π.tokens ts)) := by
  cases ts with
  | cons t ts => exact some t ts
  | nil =>
    have ends := last rfl
    have ended : π.tokens [] = [] := by rw [Elsewhere.tokens, ends.1]; rfl
    cases broken : here.malformed? with
    | some e =>
      have fails : Reader.next? here [] = .failed e [] := by rw [Reader.next?, broken]
      have fails' : Reader.next? π.there [] = .failed (π.error e) [] := by
        rw [Reader.next?, π.malformed?_eq ends, broken]
        rfl
      rw [bind_of_failed fails, ended, bind_of_failed fails']
      exact .failed e [] fun _ => by rw [ended]
    | none =>
      have done : Reader.next? here [] = .done Option.none [] := by rw [Reader.next?, broken]
      have done' : Reader.next? π.there [] = .done Option.none [] := by
        rw [Reader.next?, π.malformed?_eq ends, broken]
        rfl
      have both := none []
      rw [ended] at both
      rwa [bind_of_done done, ended, bind_of_done done']

theorem opening (place : String) :
    Moves π π.token (Reader.opening place) (Reader.opening place) :=
  bind (next _) fun _ => ite Iff.rfl (pure rfl) (refuse _)

theorem closing (place : String) :
    Moves π π.token (Reader.closing place) (Reader.closing place) :=
  bind (next _) fun _ => ite Iff.rfl (pure rfl) (refuse _)

/-- Items up to a closing parenthesis, one behind the other. -/
theorem untilClosing {place : String} {item : Token → Reader α} {item' : Token → Reader β}
    (each : ∀ t, Moves π g (item t) (item' (π.token t))) (bound : Nat) :
    Moves π (π.items g) (Reader.untilClosing place item bound)
      (Reader.untilClosing place item' (π.more.length + bound)) := by
  induction bound with
  | zero => exact endOfInput fun ends => by rw [ends.1]; rfl
  | succ bound ih =>
    exact bind (next _) fun t => ite Iff.rfl (pure rfl)
      (bind (each t) fun a => bind ih fun p => pure rfl)

/-- Items, as many as there are tokens left at most. -/
theorem items_bind {place : String} {item : Token → Reader α} {item' : Token → Reader β}
    {f : List α × Token → Reader γ} {f' : List β × Token → Reader δ}
    (each : ∀ t, Moves π g (item t) (item' (π.token t)))
    (next : ∀ as close, Moves π h (f (as, close)) (f' (as.map g, π.token close))) :
    Moves π h (Reader.remaining >>= fun n => Reader.untilClosing place item n >>= f)
      (Reader.remaining >>= fun n => Reader.untilClosing place item' n >>= f') :=
  bind remaining fun n => bind (untilClosing each n) fun p => next p.1 p.2

/-- Both readers decide by whether there are items. -/
theorem ite_isEmpty {as : List γ} {k : γ → δ} {r s : Reader α} {r' s' : Reader β}
    (yes : Moves π g r r') (no : Moves π g s s') :
    Moves π g (if as.isEmpty then r else s) (if (as.map k).isEmpty then r' else s') :=
  ite (by rw [List.isEmpty_map]) yes no

/-! ## Atoms -/

theorem atom : Moves π (Term.relocate π.part) (Reader.atom t) (Reader.atom (π.token t)) := by
  refine bind posOf fun pos => ?_
  rw [π.lexeme_token]
  cases t.lexeme with
  | opening | closing | quoted _ | string _ => exact pure rfl
  | plain text =>
    dsimp only
    cases AtomClass.ofChars text.toList with
    | invalid => exact fun ts => .failed _ ts fun _ => rfl
    | _ => exact pure rfl

theorem symbolOf :
    Moves π (Symbol.relocate π.part) (Reader.symbolOf t) (Reader.symbolOf (π.token t)) := by
  refine ite Iff.rfl (refuse _) (bind atom fun a => ?_)
  cases a with
  | symbol => exact pure rfl
  | _ => exact refuse _

theorem keywordOf :
    Moves π (Keyword.relocate π.part) (Reader.keywordOf t) (Reader.keywordOf (π.token t)) := by
  refine ite Iff.rfl (refuse _) (bind atom fun a => ?_)
  cases a with
  | keyword => exact pure rfl
  | _ => exact refuse _

theorem numeral?_token : numeral? (π.token t) = numeral? t := rfl

theorem numeralOf : Moves π id (Reader.numeralOf t) (Reader.numeralOf (π.token t)) := by
  unfold Reader.numeralOf
  rw [numeral?_token]
  cases numeral? t with
  | some value => exact pure rfl
  | none => exact refuse _

theorem symbol (place : String) :
    Moves π (Symbol.relocate π.part) (Reader.symbol place) (Reader.symbol place) :=
  bind (next _) fun _ => symbolOf

theorem keyword (place : String) :
    Moves π (Keyword.relocate π.part) (Reader.keyword place) (Reader.keyword place) :=
  bind (next _) fun _ => keywordOf

/-! ## Sorts -/

theorem sortName (parameters : List String) :
    Moves π (SmtSort.relocate π.part) (Reader.sortName parameters t)
      (Reader.sortName parameters (π.token t)) :=
  bind symbolOf fun _ => ite Iff.rfl (pure rfl) (ite Iff.rfl (pure rfl) (pure rfl))

theorem indexedSort :
    Moves π (SmtSort.relocate π.part) (Reader.indexedSort t)
      (Reader.indexedSort (π.token t)) := by
  refine bind (symbol _) fun s => items_bind (fun _ => numeralOf) fun indices close => ?_
  refine ite_isEmpty (refuseSpan _) (bind span fun pos => pure ?_)
  rw [List.map_id]
  rfl

theorem sortOf (parameters : List String) (bound : Nat) (t : Token) :
    Moves π (SmtSort.relocate π.part) (Reader.sortOf parameters bound t)
      (Reader.sortOf parameters (π.more.length + bound) (π.token t)) := by
  induction bound generalizing t with
  | zero =>
    unfold Reader.sortOf
    exact ite Iff.rfl (sortName _) (endOfInput fun ends => by rw [ends.1]; rfl)
  | succ bound ih =>
    rw [← Nat.add_assoc]
    unfold Reader.sortOf
    refine ite Iff.rfl (sortName _) (bind (next _) fun head => ?_)
    refine ite Iff.rfl indexedSort (bind symbolOf fun s => ?_)
    refine bind (untilClosing ih bound) fun (args, close) => ?_
    refine ite_isEmpty (refuseSpan _) (bind span fun pos => pure ?_)
    rw [SmtSort.relocate, SmtSort.relocateAll_eq_map]
    rfl

theorem sort (parameters : List String) :
    Moves π (SmtSort.relocate π.part) (Reader.sort parameters) (Reader.sort parameters) :=
  bind (next _) fun t => bind remaining fun n => sortOf parameters n t

/-! ## Identifiers and declarations -/

theorem plainTerm :
    Moves π (Term.relocate π.part) (Reader.plainTerm t) (Reader.plainTerm (π.token t)) := by
  refine bind atom fun a => ?_
  cases a with
  | symbol => exact ite Iff.rfl (refuse _) (pure rfl)
  | _ => exact pure rfl

theorem indexOf : Moves π id (Reader.indexOf t) (Reader.indexOf (π.token t)) := by
  unfold Reader.indexOf
  rw [numeral?_token]
  cases numeral? t with
  | some value => exact pure rfl
  | none => exact bind symbolOf fun _ => pure rfl

theorem indexedIdentifier :
    Moves π (Term.relocate π.part) (Reader.indexedIdentifier t)
      (Reader.indexedIdentifier (π.token t)) := by
  refine bind (symbol _) fun s => items_bind (fun _ => indexOf) fun indices close => ?_
  refine ite_isEmpty (refuseSpan _) (bind span fun pos => pure ?_)
  rw [List.map_id]
  rfl

theorem qualifiedIdentifier :
    Moves π (Term.relocate π.part) (Reader.qualifiedIdentifier t)
      (Reader.qualifiedIdentifier (π.token t)) :=
  bind (symbol _) fun _ => bind (sort _) fun _ => bind (closing _) fun _ =>
    bind span fun _ => pure rfl

theorem identifier :
    Moves π (Term.relocate π.part) (Reader.identifier t) (Reader.identifier (π.token t)) :=
  bind (next _) fun _ =>
    ite Iff.rfl indexedIdentifier (ite Iff.rfl qualifiedIdentifier (refuse _))

theorem functionOf :
    Moves π (Term.relocate π.part) (Reader.functionOf t) (Reader.functionOf (π.token t)) := by
  refine ite Iff.rfl identifier (bind plainTerm fun a => ?_)
  cases a with
  | symbol => exact pure rfl
  | _ => exact refuse _

theorem declarationOf (place : String) (t : Token) :
    Moves π (Declaration.relocate π.part) (Reader.declarationOf place t)
      (Reader.declarationOf place (π.token t)) :=
  ite Iff.rfl
    (bind (symbol _) fun _ => bind (sort _) fun _ => bind (closing _) fun _ => pure rfl)
    (refuse _)

theorem declarations (place : String) :
    Moves π (List.map (Declaration.relocate π.part)) (Reader.declarations place)
      (Reader.declarations place) :=
  bind (opening _) fun _ => items_bind (declarationOf place) fun _ _ => pure rfl

/-! ## Terms -/

section

variable {term term' : Token → Reader Term}
  (terms : ∀ t, Moves π (Term.relocate π.part) (term t) (term' (π.token t)))

include terms

theorem bindingOf (t : Token) :
    Moves π (Binding.relocate π.part) (Reader.bindingOf term t)
      (Reader.bindingOf term' (π.token t)) :=
  ite Iff.rfl
    (bind (symbol _) fun _ => bind (next _) fun u => bind (terms u) fun _ =>
      bind (closing _) fun _ => pure rfl)
    (refuse _)

theorem attributeValue (t : Token) :
    Moves π (Term.relocate π.part) (Reader.attributeValue term t)
      (Reader.attributeValue term' (π.token t)) :=
  ite Iff.rfl (terms t) atom

theorem attributeOf (t : Token) :
    Moves π (Attribute.relocate π.part) (Reader.attributeOf term t)
      (Reader.attributeOf term' (π.token t)) :=
  bind keywordOf fun _ => bind (peek _) fun _ => ite Iff.rfl (pure rfl)
    (bind (next _) fun u => bind (attributeValue terms u) fun _ => pure rfl)

theorem quantifiedTerm (q : Quantifier) :
    Moves π (Term.relocate π.part) (Reader.quantifiedTerm term q t u)
      (Reader.quantifiedTerm term' q (π.token t) (π.token u)) :=
  bind (declarations _) fun _ => ite_isEmpty (refuse _)
    (bind (next _) fun v => bind (terms v) fun _ => bind (closing _) fun _ =>
      bind span fun _ => pure rfl)

theorem letTerm :
    Moves π (Term.relocate π.part) (Reader.letTerm term t)
      (Reader.letTerm term' (π.token t)) := by
  refine bind (opening _) fun _ => items_bind (bindingOf terms) fun bs close => ?_
  refine ite_isEmpty (refuse _) (bind (next _) fun u => bind (terms u) fun body => ?_)
  refine bind (closing _) fun _ => bind span fun pos => pure ?_
  rw [Term.relocate, Term.relocateBindings_eq_map]
  rfl

theorem annotatedTerm :
    Moves π (Term.relocate π.part) (Reader.annotatedTerm term t)
      (Reader.annotatedTerm term' (π.token t)) := by
  refine bind (next _) fun u => bind (terms u) fun body => ?_
  refine items_bind (attributeOf terms) fun as close => ?_
  refine ite_isEmpty (refuse _) (bind span fun pos => pure ?_)
  rw [Term.relocate, Term.relocateAttributes_eq_map]
  rfl

theorem application :
    Moves π (Term.relocate π.part) (Reader.application term t u)
      (Reader.application term' (π.token t) (π.token u)) := by
  refine bind functionOf fun f => items_bind terms fun args close => bind span fun pos => pure ?_
  rw [Term.relocate, Term.relocateAll_eq_map]
  rfl

end

theorem termOf (bound : Nat) (t : Token) :
    Moves π (Term.relocate π.part) (Reader.termOf bound t)
      (Reader.termOf (π.more.length + bound) (π.token t)) := by
  induction bound generalizing t with
  | zero =>
    unfold Reader.termOf
    exact ite Iff.rfl (refuse _)
      (ite Iff.rfl plainTerm (endOfInput fun ends => by rw [ends.1]; rfl))
  | succ bound ih =>
    rw [← Nat.add_assoc]
    unfold Reader.termOf
    refine ite Iff.rfl (refuse _) (ite Iff.rfl plainTerm (bind (next _) fun head => ?_))
    refine ite Iff.rfl (refuseSpan _) (ite Iff.rfl indexedIdentifier ?_)
    refine ite Iff.rfl qualifiedIdentifier (ite Iff.rfl (quantifiedTerm ih _) ?_)
    refine ite Iff.rfl (quantifiedTerm ih _) (ite Iff.rfl (letTerm ih) ?_)
    exact ite Iff.rfl (annotatedTerm ih) (application ih)

theorem term : Moves π (Term.relocate π.part) Reader.term Reader.term :=
  bind (next _) fun t => bind remaining fun n => termOf n t

/-! ## Arguments -/

theorem setting (word : String) (optional : Bool) :
    Moves π (Prod.map (Keyword.relocate π.part) (Setting.relocate π.part))
      (Reader.setting word optional) (Reader.setting word optional) := by
  refine bind (keyword _) fun k => bind (peek _) fun ahead => ite Iff.rfl ?_ ?_
  · exact ite Iff.rfl (pure rfl) (bind (next _) fun _ => refuse _)
  · exact bind (next _) fun t => bind remaining fun n =>
      bind (attributeValue (termOf n) t) fun _ => pure rfl

theorem optionalNumeral (word : String) (default : Nat) :
    Moves π id (Reader.optionalNumeral word default) (Reader.optionalNumeral word default) :=
  bind (peek _) fun _ => ite Iff.rfl (pure rfl) (bind (next _) fun _ => numeralOf)

theorem stringLiteral (word : String) :
    Moves π (Term.relocate π.part) (Reader.stringLiteral word) (Reader.stringLiteral word) := by
  refine bind (next _) fun t => bind atom fun a => ?_
  cases a with
  | string => exact pure rfl
  | _ => exact refuse _

theorem listOf {word : String} {item : Token → Reader α} {g : α → α}
    (each : ∀ t, Moves π g (item t) (item (π.token t))) :
    Moves π (π.items g) (Reader.listOf word item) (Reader.listOf word item) :=
  bind (opening _) fun _ => bind remaining fun n => untilClosing each n

/-! ## Commands -/

/-- The arguments of a command are read there too. -/
theorem arguments {word : String} {r : Reader Command} (is : arguments? word = some r) :
    Moves π (Command.relocate π.part) r r := by
  unfold arguments? at is
  split at is <;> first | cases is | skip
  · -- assert
    exact bind term fun _ => pure rfl
  · -- declare-const
    exact bind (symbol _) fun _ => bind (sort _) fun _ => pure rfl
  · -- declare-fun
    refine bind (symbol _) fun _ => ?_
    refine bind (listOf fun t => bind remaining fun n => sortOf [] n t) fun _ => ?_
    exact bind (sort _) fun _ => pure rfl
  · -- declare-sort
    exact bind (symbol _) fun _ => bind (optionalNumeral _ _) fun _ => pure rfl
  · -- define-fun
    exact bind (symbol _) fun _ => bind (declarations _) fun _ => bind (sort _) fun _ =>
      bind term fun _ => pure rfl
  · -- define-sort
    refine bind (symbol _) fun _ => bind (listOf fun _ => symbolOf) fun (parameters, _) => ?_
    have names : (parameters.map (Symbol.relocate π.part)).map Symbol.name =
        parameters.map Symbol.name := List.map_map
    change Moves π _ (Reader.sort (parameters.map Symbol.name) >>= _)
      (Reader.sort ((parameters.map (Symbol.relocate π.part)).map Symbol.name) >>= _)
    rw [names]
    exact bind (sort _) fun _ => pure rfl
  · -- echo
    exact bind (stringLiteral _) fun _ => pure rfl
  · -- get-info
    exact bind (keyword _) fun _ => pure rfl
  · -- get-option
    exact bind (keyword _) fun _ => pure rfl
  · -- get-value
    refine bind (listOf fun t => bind remaining fun n => termOf n t) fun (terms, _) => ?_
    exact ite_isEmpty (refuse _) (pure rfl)
  · -- pop
    exact bind (optionalNumeral _ _) fun _ => pure rfl
  · -- push
    exact bind (optionalNumeral _ _) fun _ => pure rfl
  · -- set-info
    exact bind (setting _ _) fun _ => pure rfl
  · -- set-logic
    exact bind (symbol _) fun _ => pure rfl
  · -- set-option
    exact bind (setting _ _) fun _ => pure rfl
  · -- a word alone
    obtain ⟨c, known, rfl⟩ := Option.map_eq_some_iff.mp is
    refine pure ?_
    unfold bare? at known
    split at known <;> cases known <;> rfl

/-- **The next command is read there too**, where the end of the tokens is the end there. -/
theorem command? (π : Elsewhere here) (ts : List Token) (last : ts = [] → π.Ends) :
    Outcome.Moved π (Option.map (Command.relocate π.part)) (Reader.command? here ts)
      (Reader.command? π.there (π.tokens ts)) := by
  refine next?_bind ?_ (fun start => ite Iff.rfl ?_ (refuse _)) last
  · exact pure rfl
  refine bind (next _) fun name => ?_
  have known : argumentsAt? (π.token name) = argumentsAt? name := rfl
  rw [known]
  cases is : argumentsAt? name with
  | none => exact unknownCommand _
  | some r =>
    have read : Moves π (Command.relocate π.part) r r := by
      unfold argumentsAt? at is
      split at is
      · cases is
      · exact arguments is
    exact bind read fun _ => bind (closing _) fun _ => pure rfl

end Moves

end Reader

end SmtSession
