import SmtSession.Proofs.Dialect.ReadBack
import SmtSession.Proofs.Reader.Ranges
import SmtSession.Response

/-!
# Strings are read back from what is written of them

**A literal is the string between quotes, with every quote inside written twice**, and the reader
undoes just that: no character of a string ends its literal, whatever stands behind it but another
quote. So a literal is read as its string where it stands alone, as the message of an error
answer, and as an argument somewhere in a term that the dialect of the input language renders.

The first two texts have few tokens, which are given one by one. For the last one, arguments are
followed into what a term is desugared to, where none is lost (`Within.desugar`). What is written
of that shows them in front of what may follow an expression (`SExpr.Shows`), so each is one token
whatever stands around it. Where the text is read back, what is read is the same apart from
positions; there a literal is one token, and its range is where the text of it stands
(`slice_of_string`).
-/

namespace SmtSession

/-! ## A literal alone -/

namespace Token

/-- A lexeme behind which nothing stands. -/
theorem tokenizeFrom_last {l : Lexeme} (writable : l.Writable) (ends : l.Ends []) (o : Nat) :
    tokenizeFrom o l.chars = ⟨[⟨l, o, o + l.chars.length⟩], .finished (o + l.chars.length)⟩ := by
  have whole := tokenizeFrom_lexeme writable ends o
  have nothing : skipGap [] = (0, []) := by rw [skipGap]
  rw [List.append_nil, tokenizeFrom_of_nil nothing] at whole
  exact whole

/-- A lexeme and a space behind it. -/
theorem tokenizeFrom_space {l : Lexeme} (writable : l.Writable) (o : Nat) (rest : List Char) :
    tokenizeFrom o (l.chars ++ ' ' :: rest) =
      (tokenizeFrom (o + l.chars.length + 1) rest).push ⟨l, o, o + l.chars.length⟩ := by
  have past : tokenizeFrom (o + l.chars.length) ([' '] ++ rest) =
      tokenizeFrom (o + l.chars.length + 1) rest := tokenizeFrom_gap (.layout rfl .none) _
  rw [tokenizeFrom_lexeme writable (l.ends_space rest), ← List.singleton_append, past]

end Token

theorem toList_encode (content : String) :
    (Text.Quoted.encode content).toList = (Lexeme.string content).chars :=
  String.toList_ofList ..

/-- **A string is read back from its literal**, which has the whole text as its range. -/
theorem readTerm_encode (content : String) (location : Option String) :
    let source : Source := ⟨Text.Quoted.encode content, location⟩
    readTerm source = .ok (.string content (some ⟨0, source.text.length, some source⟩)) := by
  intro source
  have chars : source.text.toList = (Lexeme.string content).chars := toList_encode content
  have tokens := Token.tokenizeFrom_last (l := .string content) trivial nofun 0
  rw [← chars, Nat.zero_add] at tokens
  unfold readTerm Reader.readAll Source.tokenize
  rw [tokens, String.length_toList]
  rfl

/-- **A message is read back from its error answer**, as what the symbol of errors is applied to. -/
theorem readTerm_error (message : String) (pos : Option Pos) (location : Option String) :
    let source : Source := ⟨(Response.error message pos).text, location⟩
    let range (start stop : Nat) : Option Pos := some ⟨start, stop, some source⟩
    let close := 7 + (Text.Quoted.encode message).length
    readTerm source = .ok (.apply (.symbol ⟨"error", range 1 6⟩)
      [.string message (range 7 close)] (range 0 source.text.length)) := by
  intro source range close
  have chars : source.text.toList = Lexeme.opening.chars ++ ((Lexeme.plain "error").chars ++
      ' ' :: ((Lexeme.string message).chars ++ Lexeme.closing.chars)) := by
    simp [source, Response.text, Response.error, String.toList_append, toList_encode, Lexeme.chars]
  have length : (Lexeme.string message).chars.length = (Text.Quoted.encode message).length := by
    rw [← toList_encode, String.length_toList]
  have whole : source.text.length = close + 1 := by
    rw [← String.length_toList, chars]
    simp [close, ← length, Lexeme.chars]
    omega
  have ends : (Lexeme.string message).Ends Lexeme.closing.chars :=
    show some ')' ≠ some '"' by decide
  have tokens : source.tokenize = ⟨[⟨.opening, 0, 1⟩, ⟨.plain "error", 1, 6⟩,
      ⟨.string message, 7, close⟩, ⟨.closing, close, close + 1⟩], .finished (close + 1)⟩ := by
    unfold Source.tokenize
    rw [chars, Token.tokenizeFrom_lexeme (l := .opening) trivial trivial,
      Token.tokenizeFrom_space (l := .plain "error") (by decide : Lexeme.IsAtomText _),
      Token.tokenizeFrom_lexeme (l := .string message) trivial ends,
      Token.tokenizeFrom_last (l := .closing) trivial trivial, length]
    rfl
  unfold readTerm Reader.readAll
  rw [tokens, whole]
  rfl

/-! ## Literals in terms -/

/-- **A literal in a term that is read has the range of its own text.** -/
theorem slice_of_string {source : Source} {t : Term} {content : String} {pos : Option Pos}
    (read : readTerm source = .ok t)
    (inside : Node.Within (.term (.string content pos)) (.term t)) :
    ∃ start stop, pos = some ⟨start, stop, some source⟩ ∧
      source.slice start stop = Text.Quoted.encode content := by
  obtain ⟨located, text, tail, whole, placed, -⟩ :=
    taken_of_readAll read Reader.Takes.term_located
  obtain ⟨before, here, after, split, stands⟩ := located.inside _ inside
  obtain ⟨first, more, rfl, from_tokens⟩ := stands.read
  have one : (first :: more).map Token.lexeme = [.string content] := from_tokens.spelled
  obtain ⟨literal, none⟩ := List.cons.inj one
  obtain rfl := List.map_eq_nil_iff.mp none
  have is : first ∈ source.tokenize.list := by simp [split]
  refine ⟨first.start, first.stop, from_tokens.ranged, ?_⟩
  rw [(placed.slice whole is).2, literal, ← toList_encode, String.ofList_toList]

/-- The node without positions. -/
def Node.bare : Node → Node
  | .term t => .term t.bare
  | .sort σ => .sort σ.bare
  | .label t => .label t.bare

theorem Term.parts_bare (t : Term) : t.bare.parts = t.parts.map Node.bare := by
  cases t with
  | apply head args pos =>
    simp [bare, parts, Node.bare, Reader.termsBare_eq_map]
  | quantified q parameters body pos =>
    simp [bare, parts, Node.bare, List.flatMap_map, List.map_flatMap, Declaration.parts,
      Declaration.bare]
  | letIn bindings body pos =>
    have each (b : Binding) : (Reader.bareBinding b).parts = b.parts.map Node.bare := by
      cases b
      rfl
    simp [bare, parts, Node.bare, Reader.bindingsBare_eq_map, List.flatMap_map, List.map_flatMap,
      each]
  | attributed term attributes pos =>
    have each (a : Attribute) : (Reader.bareAttribute a).parts = a.parts.map Node.bare := by
      obtain ⟨k, v⟩ := a
      cases v <;> rfl
    simp [bare, parts, Node.bare, Reader.attributesBare_eq_map, List.flatMap_map, List.map_flatMap,
      each]
  | binding b =>
    cases b
    rfl
  | attr a =>
    obtain ⟨k, v⟩ := a
    cases v <;> rfl
  | _ => rfl

namespace Node

theorem children_bare (n : Node) : n.bare.children = n.children.map bare := by
  cases n with
  | sort σ => cases σ <;> simp [bare, children, SmtSort.bare, SmtSort.parts, Reader.bareAll_eq_map]
  | term t | label t => exact t.parts_bare

theorem Within.bare {n m : Node} (inside : n.Within m) : n.bare.Within m.bare := by
  induction inside with
  | here => exact .here
  | @child m c is _ ih =>
    refine .child ?_ ih
    rw [children_bare]
    exact List.mem_map_of_mem is

/-- What stands in a node without positions stands in the node with some. -/
theorem Within.of_bare {k m : Node} (inside : k.Within m.bare) :
    ∃ n : Node, n.bare = k ∧ n.Within m := by
  generalize whole : m.bare = b at inside
  induction inside generalizing m with
  | here => exact ⟨m, whole, .here⟩
  | @child b c is _ ih =>
    subst whole
    rw [children_bare] at is
    obtain ⟨c', is, same⟩ := List.mem_map.mp is
    obtain ⟨n, same', inside⟩ := ih same
    exact ⟨n, same', .child is inside⟩

/-- Terms that are the same without positions hold the same literals. -/
theorem Within.string_of_bare {t r : Term} {content : String} {pos : Option Pos}
    (same : r.bare = t.bare) (inside : Within (.term (.string content pos)) (.term t)) :
    ∃ pos', Within (.term (.string content pos')) (.term r) := by
  have there : Within (.term (.string content none)) (Node.term r).bare := by
    rw [Node.bare, same]
    exact inside.bare
  obtain ⟨n, is, inside⟩ := there.of_bare
  cases n with
  | sort σ => cases is
  | label t => cases is
  | term u =>
    cases u with
    | string content' pos' =>
      cases is
      exact ⟨pos', inside⟩
    | binding b =>
      cases b
      cases is
    | attr a =>
      obtain ⟨k, v⟩ := a
      cases v <;> cases is
    | _ => cases is

end Node

/-! ## Literals in what is desugared -/

namespace Term

open Dialect (neighbours pairs)

variable {a : Term} {args : List Term}

/-- The first of two or more stands in a pair of neighbours. -/
theorem exists_neighbours (enough : 2 ≤ args.length) (is : a ∈ args) :
    ∃ p ∈ neighbours args, a ∈ [p.1, p.2] := by
  induction args with
  | nil => cases is
  | cons b bs ih =>
    match bs, enough with
    | c :: cs, _ =>
      rcases List.mem_cons.mp is with rfl | is
      · exact ⟨(a, c), List.mem_cons_self, by simp⟩
      · match cs with
        | [] => exact ⟨(b, c), List.mem_cons_self, by simpa using Or.inr is⟩
        | d :: ds =>
          obtain ⟨p, there, either⟩ := ih (by simp) is
          exact ⟨p, List.mem_cons_of_mem _ there, either⟩

theorem exists_pairs (enough : 2 ≤ args.length) (is : a ∈ args) :
    ∃ p ∈ pairs args, a ∈ [p.1, p.2] := by
  match args, enough with
  | b :: c :: cs, _ =>
    rcases List.mem_cons.mp is with rfl | is
    · exact ⟨(a, c), by simp [pairs], by simp⟩
    · refine ⟨(b, a), ?_, by simp⟩
      exact List.mem_append_left _ (List.mem_map_of_mem is)

theorem within_apply {head : Term} {pos : Option Pos} (is : a ∈ args) :
    Within a (.apply head args pos) :=
  .argument is .here

/-- What stands in one of several terms stands in their conjunction. -/
theorem within_conjunction_of_mem {t : Term} {ts : List Term} (is : t ∈ ts) :
    Within t (conjunction ts) := by
  unfold conjunction
  split
  · rw [List.mem_singleton.mp is]
    exact .here
  · exact within_apply is

theorem within_conjunction_of_pair {ps : List (Term × Term)} {f : Term × Term → Term}
    (each : ∀ p, ∀ b ∈ [p.1, p.2], Within b (f p)) (some : ∃ p ∈ ps, a ∈ [p.1, p.2]) :
    Within a (conjunction (ps.map f)) := by
  obtain ⟨p, is, either⟩ := some
  exact (each p a either).trans (within_conjunction_of_mem (List.mem_map_of_mem is))

theorem mem_within_foldl (as : List Term) (b : Term) (is : a ∈ b :: as) :
    Within a (as.foldl (fun acc b => operation "/=" [acc, b]) b) := by
  induction as generalizing a b with
  | nil =>
    rw [List.mem_singleton.mp is]
    exact .here
  | cons c cs ih =>
    have inner : Within (operation "/=" [b, c]) _ := ih _ List.mem_cons_self
    rcases List.mem_cons.mp is with rfl | is
    · exact (within_apply (by simp)).trans inner
    rcases List.mem_cons.mp is with rfl | is
    · exact (within_apply (by simp)).trans inner
    · exact ih _ (List.mem_cons_of_mem _ is)

theorem mem_within_nestRight {s : Symbol} {pos : Option Pos} (as : List Term) (b : Term)
    (is : a ∈ b :: as) :
    Within a (nestRight (fun b c => .apply (.symbol s) [b, c] pos) b as) := by
  induction as generalizing b with
  | nil =>
    rw [List.mem_singleton.mp is]
    exact .here
  | cons c cs ih =>
    rcases List.mem_cons.mp is with rfl | is
    · exact within_apply (by simp)
    · exact (ih c is).trans (within_apply (by simp))

/-- **No argument is lost** when an operator is rearranged. -/
theorem mem_within_arrange {s : Symbol} {pos : Option Pos} (enough : EnoughFor s.name args.length)
    (is : a ∈ args) : Within a (arrange s args pos) := by
  obtain ⟨-, two⟩ := enough
  unfold arrange
  by_cases compares : s.name ∈ comparisons
  · rw [if_pos compares]
    exact within_conjunction_of_pair (fun _ _ => within_apply)
      (exists_neighbours (two (.inl compares)) is)
  rw [if_neg compares]
  by_cases distinct : s.name = "distinct"
  · rw [if_pos distinct]
    exact within_conjunction_of_pair (fun _ _ => within_apply)
      (exists_pairs (two (.inr distinct)) is)
  rw [if_neg distinct]
  match args, is with
  | b :: bs, is =>
    dsimp only
    split
    · exact mem_within_foldl bs b is
    split
    · exact mem_within_nestRight bs b is
    split
    · next alone =>
      rw [alone.2, List.mem_singleton] at is
      rw [is]
      exact within_apply (by simp)
    · exact within_apply is

theorem admitted_of_mem {ts : List Term} (all : AdmittedAll ts) (is : a ∈ ts) : a.Admitted := by
  induction ts with
  | nil => cases is
  | cons t ts ih =>
    rcases List.mem_cons.mp is with rfl | is
    · exact all.1
    · exact ih all.2 is

theorem desugarBindings_of_mem {s : Symbol} {bs : List Binding} (all : AdmittedBindings bs)
    (is : .mk s a ∈ bs) : a.Admitted ∧ .mk s a.desugar ∈ desugarBindings bs := by
  induction bs with
  | nil => cases is
  | cons b bs ih =>
    obtain ⟨r, t⟩ := b
    rcases List.mem_cons.mp is with same | is
    · cases same
      exact ⟨all.1, List.mem_cons_self⟩
    · obtain ⟨admitted, there⟩ := ih all.2 is
      exact ⟨admitted, List.mem_cons_of_mem _ there⟩

/-- What stands in a term stands, desugared, in what the term is desugared to. -/
theorem Within.desugar {u t : Term} (inside : Within u t) (admitted : t.Admitted) :
    Within u.desugar t.desugar := by
  induction inside with
  | here => exact .here
  | @argument head b args pos is _ ih =>
    obtain ⟨⟨s, rfl, enough⟩, all⟩ := admitted
    have member : b.desugar ∈ desugarAll args := by
      rw [desugarAll_eq_map]
      exact List.mem_map_of_mem is
    exact (ih (admitted_of_mem all is)).trans (mem_within_arrange (enough_desugarAll enough) member)
  | quantified _ ih => exact .quantified (ih admitted)
  | @bound s b body bindings pos is _ ih =>
    obtain ⟨inner, there⟩ := desugarBindings_of_mem admitted.1 is
    exact .bound there (ih inner)
  | letBody _ ih => exact .letBody (ih admitted.2)
  | annotated _ ih => exact ih admitted

end Term

/-! ## Literals in what is rendered -/

namespace SExpr

/-- A text stands in another one, in front of what may stand behind an expression. -/
def Shows (whole part : String) : Prop :=
  ∃ before after : String, whole = before ++ part ++ after ∧ Stops after.toList

theorem Shows.refl (text : String) : Shows text text :=
  ⟨"", "", by simp, nofun⟩

theorem Shows.trans {whole part inner : String} (first : Shows part inner)
    (next : Shows whole part) : Shows whole inner := by
  obtain ⟨before, after, rfl, stops⟩ := first
  obtain ⟨before', after', rfl, stops'⟩ := next
  refine ⟨before' ++ before, after ++ after', by simp [String.append_assoc], fun c is => ?_⟩
  rw [String.toList_append] at is
  cases chars : after.toList with
  | nil => exact stops' c (by simpa [chars] using is)
  | cons d ds => exact stops c (by simpa [chars] using is)

/-- Texts with a space between neighbours show each of them. -/
theorem shows_intercalate {text : String} {all : List String} (is : text ∈ all) :
    Shows (String.intercalate " " all) text := by
  induction all with
  | nil => cases is
  | cons first more ih =>
    cases more with
    | nil =>
      rw [List.mem_singleton.mp is, String.intercalate_singleton]
      exact .refl first
    | cons second more =>
      rw [String.intercalate_cons_cons]
      rcases List.mem_cons.mp is with rfl | is
      · refine ⟨"", " " ++ String.intercalate " " (second :: more), ?_, ?_⟩
        · simp [String.append_assoc]
        · rw [String.toList_append]
          exact stops_space _
      · obtain ⟨before, after, same, stops⟩ := ih is
        exact ⟨first ++ " " ++ before, after, by simp [same, String.append_assoc], stops⟩

/-- A list shows its items. -/
theorem shows_item {e : SExpr} {es : List SExpr} (is : e ∈ es) :
    Shows (SExpr.list es).text e.text := by
  have there : e.text ∈ texts es := by
    induction es with
    | nil => cases is
    | cons f fs ih =>
      rcases List.mem_cons.mp is with rfl | is
      · exact List.mem_cons_self
      · exact List.mem_cons_of_mem _ (ih is)
  exact (shows_intercalate there).trans ⟨"(", ")", rfl, stops_closing []⟩

end SExpr

namespace Dialect

variable {d : Dialect}

theorem mem_writeBindings {s : Symbol} {t : Term} {bs : List Binding} (is : .mk s t ∈ bs) :
    .call (.atom s.name) [d.write t] ∈ d.writeBindings bs := by
  induction bs with
  | nil => cases is
  | cons b bs ih =>
    obtain ⟨r, u⟩ := b
    rcases List.mem_cons.mp is with same | is
    · cases same
      exact List.mem_cons_self
    · exact List.mem_cons_of_mem _ (ih is)

/-- **What is written of a term shows what is written of the terms in it**, if all of these are
plain: then names are applied, and nothing is annotated. -/
theorem write_shows {whole u t : Term} (inside : Term.Within u t)
    (plain : ∀ v, Term.Within v t → Term.Plain whole v) :
    SExpr.Shows (d.write t).text (d.write u).text := by
  induction inside with
  | here => exact .refl _
  | @argument head a args pos is inside ih =>
    obtain ⟨s, rfl, -⟩ := plain _ .here
    rw [write_apply]
    refine (ih fun v there => plain v (.argument is there)).trans (SExpr.shows_item ?_)
    exact List.mem_cons_of_mem _ (List.mem_map_of_mem is)
  | quantified inside ih =>
    exact (ih fun v there => plain v (.quantified there)).trans (SExpr.shows_item (by simp))
  | @bound s a body bindings pos is inside ih =>
    have value : d.write a ∈ [.atom s.name, d.write a] := by simp
    have binding := (ih fun v there => plain v (.bound is there)).trans (SExpr.shows_item value)
    have all := binding.trans (SExpr.shows_item (mem_writeBindings is))
    exact all.trans (SExpr.shows_item (by simp))
  | letBody inside ih =>
    exact (ih fun v there => plain v (.letBody there)).trans (SExpr.shows_item (by simp))
  | annotated inside ih => exact (plain _ .here).elim

/-- A literal in a term that is rendered is shown as its text. -/
theorem render_shows {t : Term} {w content : String} {pos : Option Pos} (proper : t.Proper)
    (rendered : smtLib.render t = .ok w) (inside : Term.Within (.string content pos) t) :
    SExpr.Shows w (Text.Quoted.encode content) := by
  obtain ⟨e, spelled, same⟩ := bind_eq_ok.mp rendered
  cases same
  obtain ⟨admitted, rfl⟩ := spell_eq_write smtLib_sharesOperators t proper spelled
  have there : Term.Within (.string content pos) t.desugar := inside.desugar admitted
  have shown := write_shows (d := smtLib) there fun _ => Term.desugared_plain admitted
  rwa [write, SExpr.text] at shown

end Dialect

/-- A term that stands in another one is a node of it. -/
theorem Term.Within.node {u t : Term} (inside : Within u t) :
    Node.Within (.term u) (.term t) := by
  induction inside with
  | here => exact .here
  | argument is _ ih => exact .child (List.mem_cons_of_mem _ (List.mem_map_of_mem is)) ih
  | quantified _ ih => exact .child (List.mem_append_right _ (List.mem_singleton_self _)) ih
  | @bound s t body bindings pos is _ ih =>
    refine .child (List.mem_append_left _ (List.mem_flatMap.mpr ⟨_, is, ?_⟩)) ih
    exact List.mem_cons_of_mem _ (List.mem_singleton_self _)
  | letBody _ ih => exact .child (List.mem_append_right _ (List.mem_singleton_self _)) ih
  | annotated _ ih => exact .child List.mem_cons_self ih

/-! ## What is written of strings -/

/-- **Strings are read back** wherever they are written: alone, as the messages of errors, and in
terms. -/
structure StringsReadBack (location : Option String) : Prop where
  /-- A literal is read as the string, and has the whole text as its range. -/
  literal : ∀ content : String,
    let source : Source := ⟨Text.Quoted.encode content, location⟩
    readTerm source = .ok (.string content (some ⟨0, source.text.length, some source⟩))
  /-- An error answer is read as the symbol of errors applied to the message. -/
  error : ∀ (message : String) (pos : Option Pos),
    let source : Source := ⟨(Response.error message pos).text, location⟩
    let range (start stop : Nat) : Option Pos := some ⟨start, stop, some source⟩
    let close := 7 + (Text.Quoted.encode message).length
    readTerm source = .ok (.apply (.symbol ⟨"error", range 1 6⟩)
      [.string message (range 7 close)] (range 0 source.text.length))
  /-- A literal in any term that is rendered is written as its text, and that is one token, which
  holds the string, whatever names and sorts stand before and behind it. -/
  shown : ∀ (t : Term) (w : String), t.Proper → Dialect.smtLib.render t = .ok w →
    ∀ content pos, Term.Within (.string content pos) t → ∃ before after : String,
      w = before ++ Text.Quoted.encode content ++ after ∧ ∀ start,
        let stop := start + (Text.Quoted.encode content).length
        Token.tokenizeFrom start (Text.Quoted.encode content ++ after).toList =
          (Token.tokenizeFrom stop after.toList).push ⟨.string content, start, stop⟩
  /-- In a term that is read back as a whole, a literal is read as the string, and has the range
  where it is written; the rest is read as what the term is desugared to. -/
  nested : ∀ (t : Term) (w : String), t.Legible → Dialect.smtLib.render t = .ok w →
    let source : Source := ⟨w, location⟩
    ∃ r, readTerm source = .ok r ∧ r.bare = t.desugar.bare ∧
      ∀ content pos, Term.Within (.string content pos) t → ∃ start stop,
        Node.Within (.term (.string content (some ⟨start, stop, some source⟩))) (.term r) ∧
        source.slice start stop = Text.Quoted.encode content

/-- **What is written of a string is read as that string.** -/
theorem strings_readBack (location : Option String) : StringsReadBack location where
  literal content := readTerm_encode content location
  error message pos := readTerm_error message pos location
  shown t w proper rendered content pos inside := by
    obtain ⟨before, after, whole, stops⟩ := Dialect.render_shows proper rendered inside
    refine ⟨before, after, whole, fun start => ?_⟩
    rw [String.toList_append, toList_encode, ← String.length_toList, toList_encode]
    exact Token.tokenizeFrom_lexeme (l := .string content) trivial (stops.ends _) start
  nested t w legible rendered := by
    intro source
    obtain ⟨e, spelled, same⟩ := Dialect.bind_eq_ok.mp rendered
    cases same
    obtain ⟨admitted, rfl⟩ := Dialect.spell_eq_write Dialect.smtLib_sharesOperators t
      (Term.Legible.proper t legible) spelled
    obtain ⟨r, read, same⟩ := (Term.transcribed_desugar t legible admitted).readBack location
    refine ⟨r, read, same, fun content pos inside => ?_⟩
    have there : Node.Within (.term (.string content pos)) (.term t.desugar) :=
      (inside.desugar admitted).node
    obtain ⟨pos', found⟩ := there.string_of_bare same
    obtain ⟨start, stop, rfl, cut⟩ := slice_of_string read found
    exact ⟨start, stop, found, cut⟩

/-- A string of quotes, a bar, a semicolon, a parenthesis and line ends: shown under a quantifier,
where what is written is no term, and read back in a chain of comparisons. -/
theorem strings_readBack_chain :
    let content := "\"|;(\r\n\"\""
    let literal := "\"\"\"|;(\r\n\"\"\"\"\""
    let x : Symbol := { name := "x" }
    let equation : Term := .apply (.symbol { name := "=" }) [.symbol x, .string content none] none
    let t : Term := .quantified .universal [⟨x, .bool none⟩] equation none
    let w := "(forall (x::Bool) (= x " ++ literal ++ "))"
    let t' : Term := .apply (.symbol { name := "=" })
      [.symbol x, .string content none, .symbol x] none
    let w' := "(and (= x " ++ literal ++ ") (= " ++ literal ++ " x))"
    let source : Source := ⟨w', none⟩
    ((t.Proper ∧ Dialect.smtLib.render t = .ok w) ∧ ∃ before after : String,
      w = before ++ literal ++ after ∧ Token.tokenizeFrom 0 (literal ++ after).toList =
        (Token.tokenizeFrom literal.length after.toList).push
          ⟨.string content, 0, literal.length⟩) ∧
    (t'.Legible ∧ Dialect.smtLib.render t' = .ok w') ∧
      ∃ r, readTerm source = .ok r ∧ r.bare = t'.desugar.bare ∧
        ∃ start stop,
          Node.Within (.term (.string content (some ⟨start, stop, some source⟩))) (.term r) ∧
          source.slice start stop = literal := by
  intro content literal x equation t w t' w' source
  have is : Text.Quoted.encode content = literal := by decide
  have proper : t.Proper := ⟨trivial, trivial, trivial, trivial⟩
  have rendered : Dialect.smtLib.render t = .ok w := by decide +kernel
  have inside : Term.Within (.string content none) t := .quantified (Term.within_apply (by simp))
  obtain ⟨before, after, whole, token⟩ :=
    (strings_readBack none).shown t w proper rendered content none inside
  have token := token 0
  rw [is] at whole token
  rw [Nat.zero_add] at token
  have x_plain : IsPlainName "x" := ⟨by decide, by decide, by decide⟩
  have equals_plain : IsPlainName "=" := ⟨by decide, by decide, by decide⟩
  have legible : t'.Legible := ⟨⟨_, rfl, equals_plain⟩, x_plain, trivial, x_plain, trivial⟩
  have rendered' : Dialect.smtLib.render t' = .ok w' := by decide +kernel
  have inside' : Term.Within (.string content none) t' := Term.within_apply (by simp)
  obtain ⟨r, read, same, strings⟩ := (strings_readBack none).nested t' w' legible rendered'
  obtain ⟨start, stop, found, cut⟩ := strings content none inside'
  exact ⟨⟨⟨proper, rendered⟩, before, after, whole, token⟩,
    ⟨legible, rendered'⟩, r, read, same, start, stop, found, cut.trans is⟩

end SmtSession
