import SmtSession.Proofs.Reader.Extent
import SmtSession.Proofs.Reader.TakenTerms

/-!
# What is read accounts for the whole text

**Nothing of a text is dropped** when it is read: a term or a sort stands alone between two
gaps, at the range that it is said to have, and a script is its commands with gaps around
them. So whatever else is in a text makes it an error, but for one thing: a string literal
that is never closed is left unread behind the last gap.

The readers take all tokens and leave none, and the tokens account for the text;
`accounted` puts the two together.
-/

namespace SmtSession

/-- **The text holds one item** between two gaps, spelled at the range: before it and behind
it stand spaces, tabs, line feeds, carriage returns and comments only, up to what is not
read. -/
def Source.Holds (source : Source) (spells : List Lexeme → Prop) (pos : Option Pos) : Prop :=
  ∃ before written after tail ls,
    source.text.toList = before ++ (written ++ (after ++ tail)) ∧
      Gap before (written ++ (after ++ tail)) ∧ Written (after ++ tail) ls written ∧ spells ls ∧
      Gap after tail ∧ Unread tail ∧
      pos = some ⟨before.length, before.length + written.length, some source⟩

/-- **Characters list items** with gaps around them, each spelled in front of the others. -/
inductive Listed (spells : α → List Lexeme → Prop) (tail : List Char) : List α → List Char → Prop
  | ended {gap : List Char} (is : Gap gap tail) : Listed spells tail [] gap
  | item {a : α} {as : List α} {ls : List Lexeme} {gap written rest : List Char}
      (is : Gap gap (written ++ (rest ++ tail))) (here : Written (rest ++ tail) ls written)
      (spelled : spells a ls) (more : Listed spells tail as rest) :
      Listed spells tail (a :: as) (gap ++ (written ++ rest))

/-- What a text holds is what is read of it, as a term, as a sort and as a script. -/
structure Source.Accounted (source : Source) : Prop where
  /-- A term that is read is all that the text holds … -/
  term : ∀ t, readTerm source = .ok t → source.Holds t.Spelled t.pos
  /-- … and so is a sort. -/
  sort : ∀ σ, readSort source = .ok σ → source.Holds (σ.Spelled []) σ.pos
  /-- The commands that are read are all that the text lists. -/
  script : ∀ cs, readScript source = .ok cs → ∃ text tail,
    source.text.toList = text ++ tail ∧ Listed Command.Spelled tail cs text ∧ Unread tail

open Reader (Takes ReadFrom)

/-- What is read of a whole source is in the relation with all its tokens, and these stand in
the text. -/
theorem taken_of_readAll {r : Reader α} {source : Source} {a : α} {Q : List Token → α → Prop}
    (read : Reader.readAll r source = .ok a)
    (takes : Takes ⟨source, source.tokenize.ending⟩ r Q) :
    Q source.tokenize.list a ∧ ∃ text tail, source.text.toList = text ++ tail ∧
      Token.Placed tail 0 source.tokenize.list text ∧ Unread tail := by
  obtain ⟨done, well⟩ := Reader.done_of_readAll read
  obtain ⟨taken, all, holds⟩ := takes _ _ _ done
  rw [List.append_nil] at all
  obtain ⟨text, tail, whole, placed, unread | ⟨-, broken⟩⟩ :=
    Token.exists_placed 0 source.text.toList
  · exact ⟨all ▸ holds, text, tail, whole, placed, unread⟩
  · unfold Reader.Input.malformed? at well
    split at well
    · next ends => exact absurd ends (broken _)
    · cases well
    · cases well

/-- An item that is spelled by all tokens is held at their place. -/
theorem Source.holds_of_readAll {r : Reader α} {source : Source} {a : α}
    {spells : α → List Lexeme → Prop} {pos : α → Option Pos}
    (read : Reader.readAll r source = .ok a)
    (takes : ∀ input, Takes input r fun taken a =>
      ∃ first more, taken = first :: more ∧ ReadFrom input (spells a) (pos a) first more) :
    source.Holds (spells a) (pos a) := by
  obtain ⟨⟨first, more, all, item⟩, text, tail, whole, placed, unread⟩ :=
    taken_of_readAll read (takes _)
  have all : source.tokenize.list = first :: (more ++ []) := by rw [all, List.append_nil]
  obtain ⟨before, written, rest, rfl, gap, here, starts, stops, placed⟩ := (all ▸ placed).split
  cases placed with
  | ended after =>
    refine ⟨before, written, rest, tail, _, by simpa using whole, gap, here, item.spelled, after,
      unread, ?_⟩
    rw [item.ranged, Reader.Input.spanned, starts, stops, Nat.zero_add]

/-- Tokens that spell items list them at their places. -/
theorem listed_of_placed {cs : List Command} {ts : List Token} {o : Nat} {text tail : List Char}
    (spelled : SpelledAll Command.Spelled cs (ts.map Token.lexeme))
    (placed : Token.Placed tail o ts text) : Listed Command.Spelled tail cs text := by
  induction cs generalizing ts o text with
  | nil =>
    cases List.map_eq_nil_iff.mp spelled
    cases placed with
    | ended is => exact .ended is
  | cons c cs ih =>
    obtain ⟨here, later, split, spelled_here, spelled_later⟩ := spelled
    obtain ⟨us, vs, rfl, rfl, rfl⟩ := List.map_eq_append_iff.mp split
    cases us with
    | nil =>
      obtain ⟨args, none, -⟩ := spelled_here
      cases none
    | cons first more =>
      obtain ⟨before, written, rest, rfl, gap, here, -, -, placed⟩ := Token.Placed.split placed
      exact .item gap here spelled_here (ih spelled_later placed)

/-- **Every text is accounted for by what is read of it**, as a term, as a sort and as a
script, up to a string literal that is never closed. -/
theorem accounted (source : Source) : source.Accounted where
  term _ read := Source.holds_of_readAll read fun _ => Takes.term
  sort _ read := Source.holds_of_readAll read fun _ => Takes.sort []
  script cs read := by
    obtain ⟨spelled, text, tail, whole, placed, unread⟩ :=
      taken_of_readAll read Takes.script
    exact ⟨text, tail, whole, listed_of_placed spelled placed, unread⟩

/-! ## A literal that is not read -/

/-- What lists items up to the end of a text is a layout. -/
theorem Listed.laid {spells : α → List Lexeme → Prop} {as : List α} {text : List Char}
    (listed : Listed spells [] as text) : ∃ ls, Laid ls text := by
  induction listed with
  | ended is => exact ⟨[], .ended is⟩
  | item is here _ _ ih =>
    obtain ⟨ls, laid⟩ := ih
    rw [List.append_nil] at is here
    exact ⟨_, here.laid is laid⟩

/-- A text with a literal that is never closed is accounted for up to that literal. -/
theorem accounted_behind_command :
    let source : Source := ⟨"(check-sat)\n\"abc", none⟩
    ∃ cs, readScript source = .ok cs ∧ cs.length = 1 ∧ ∃ text tail,
      source.text.toList = text ++ tail ∧ Listed Command.Spelled tail cs text ∧ Unread tail := by
  intro source
  have counted : (readScript source).toOption.map List.length = some 1 := by decide +kernel
  obtain ⟨cs, read, one⟩ := exists_of_readScript counted
  exact ⟨cs, read, one, (accounted source).script cs read⟩

/-- **A literal that is never closed is dropped**: the text is read, and lists more than was
read of it. -/
theorem not_listed_behind_command :
    ¬ ∀ (source : Source) (cs : List Command), readScript source = .ok cs →
      Listed Command.Spelled [] cs source.text.toList := by
  intro listed
  let source : Source := ⟨"(check-sat)\n\"abc", none⟩
  have counted : (readScript source).toOption.map List.length = some 1 := by decide +kernel
  obtain ⟨cs, read, -⟩ := exists_of_readScript counted
  obtain ⟨ls, laid⟩ := (listed source cs read).laid
  have whole := (Source.tokenize_laid laid none).2
  have early : (Source.tokenize ⟨source.text, none⟩).ending = .finished 12 := by decide +kernel
  rw [early] at whole
  exact absurd whole (by decide)

end SmtSession
