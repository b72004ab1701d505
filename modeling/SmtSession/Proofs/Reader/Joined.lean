import SmtSession.Proofs.Reader.Blind
import SmtSession.Proofs.Reader.Whole

/-!
# One text behind another

**The tokens of two texts with a line feed between them** are those of the first, and then
those of the second at their places behind it: `Source.tokenize_joined`. The first text must
have been read to its end. It may end in a comment or in carriage returns, for a line feed
ends the one and is no part of an atom; but if it ends inside a string literal, the literal
goes on in the second text.

The tokenizer has no memory but its offset. So what it finds in a text it finds at any other
place too, moved: `tokenizeFrom_shift`.
-/

namespace SmtSession

/-! ## Moved tokens -/

/-- The token, as many characters further on. -/
def Token.shift (k : Nat) (t : Token) : Token :=
  ⟨t.lexeme, k + t.start, k + t.stop⟩

/-- The end, as many characters further on. -/
def Ending.shift (k : Nat) : Ending → Ending
  | .finished offset => .finished (k + offset)
  | .unknownEscape start stop => .unknownEscape (k + start) (k + stop)
  | .unclosedSymbol start stop => .unclosedSymbol (k + start) (k + stop)

/-- The tokens, as many characters further on. -/
def Tokens.shift (k : Nat) (ts : Tokens) : Tokens :=
  ⟨ts.list.map (Token.shift k), ts.ending.shift k⟩

theorem Token.map_lexeme_shift (k : Nat) (ts : List Token) :
    (ts.map (Token.shift k)).map Token.lexeme = ts.map Token.lexeme := by
  rw [List.map_map]
  rfl

/-- Moved tokens end as they did. -/
theorem Ending.like_shift (e : Ending) (k : Nat) : e.Like (e.shift k) := by
  cases e with
  | finished => exact .finished _ _
  | unknownEscape => exact .unknownEscape _ _ _ _
  | unclosedSymbol => exact .unclosedSymbol _ _ _ _

namespace Token

/-- What the tokenizer finds at a quoted symbol that is malformed. -/
theorem tokenizeFrom_shift_brokenSymbol {body : List Char}
    (never : ∀ content rest, Text.Barred.scan body ≠ .closed content rest) (k o : Nat) :
    tokenizeFrom (k + o) ('|' :: body) = (tokenizeFrom o ('|' :: body)).shift k := by
  have skips : skipGap ('|' :: body) = (0, '|' :: body) :=
    skipGap_of_token (by decide) (by decide)
  rw [tokenizeFrom_of_cons skips, tokenizeFrom_of_cons skips]
  simp only [front, Char.reduceEq, if_false, if_true]
  cases scanned : Text.Barred.scan body with
  | closed content rest => exact absurd scanned (never content rest)
  | badEscape _ | unclosed => simp only [Tokens.shift, Ending.shift, Nat.add_assoc, List.map_nil]

/-- **The tokenizer has no memory but its offset.** -/
theorem tokenizeFrom_shift (k o : Nat) (cs : List Char) :
    tokenizeFrom (k + o) cs = (tokenizeFrom o cs).shift k := by
  obtain ⟨gap, rest, whole, is, behind⟩ := exists_gap cs
  rw [whole, tokenizeFrom_gap is, tokenizeFrom_gap is, Nat.add_assoc]
  cases behind with
  | nothing =>
    have none : skipGap [] = (0, []) := by rw [skipGap]
    rw [tokenizeFrom_of_nil none, tokenizeFrom_of_nil none]
    rfl
  | @lexeme l rest writable ends =>
    have shorter : rest.length < cs.length := by
      have some := List.length_pos_iff.mpr (chars_ne_nil writable)
      simp only [whole, List.length_append]
      omega
    rw [tokenizeFrom_lexeme writable ends, tokenizeFrom_lexeme writable ends, Nat.add_assoc,
      tokenizeFrom_shift]
    rfl
  | openLiteral never =>
    rw [tokenizeFrom_openLiteral never, tokenizeFrom_openLiteral never]
    rfl
  | brokenSymbol never => exact tokenizeFrom_shift_brokenSymbol never k _
termination_by cs.length
decreasing_by exact shorter

/-! ## A line feed and more text -/

/-- Where an atom ends, it ends in front of more text on another line. -/
theorem Breaks.line {cs : List Char} (ends : Breaks cs) (more : List Char) :
    Breaks (cs ++ '\n' :: more) := by
  induction cs with
  | nil => exact .inl rfl
  | cons c cs ih => exact ends.imp id fun ⟨same, ends⟩ => ⟨same, ih ends⟩

end Token

/-- Where a lexeme ends, it ends in front of more text on another line. -/
theorem Lexeme.Ends.line {l : Lexeme} {rest : List Char} (ends : l.Ends rest) (more : List Char) :
    l.Ends (rest ++ '\n' :: more) := by
  cases l with
  | plain text => exact Token.Breaks.line ends more
  | string content =>
    cases rest with
    | nil => nofun
    | cons c rest => exact ends
  | _ => trivial

/-- What is a gap in front of something is one in front of more. -/
theorem Gap.line {gap rest : List Char} (is : Gap gap rest) (some : rest ≠ [])
    (more : List Char) : Gap gap (rest ++ '\n' :: more) := by
  induction is with
  | none => exact .none
  | layout is _ ih => exact .layout is (ih some)
  | comment line _ ih => exact .comment line (ih some)
  | lastComment => exact absurd rfl some
  | carriageReturn ends _ ih =>
    refine .carriageReturn ?_ (ih some)
    rw [← List.append_assoc]
    exact ends.line more

/-- What is a gap up to the end is one with a line feed, in front of anything. -/
theorem Gap.lastLine {gap rest : List Char} (is : Gap gap rest) (last : rest = [])
    (more : List Char) : Gap (gap ++ ['\n']) more := by
  induction is with
  | none => exact .layout rfl .none
  | layout is _ ih => exact .layout is (ih last)
  | @comment body gap _ line _ ih =>
    rw [List.cons_append, List.append_assoc]
    exact .comment line (ih last)
  | lastComment line => exact .comment line .none
  | @carriageReturn gap rest ends _ ih =>
    rw [last, List.append_nil] at ends
    have ends : Token.Breaks ((gap ++ ['\n']) ++ more) := by
      rw [List.append_assoc]
      exact ends.line more
    exact .carriageReturn ends (ih last)

namespace Token

/-- **The tokens of a text that has been read to its end are found in it** when more text
follows on another line, and those of that text behind them. -/
theorem tokenizeFrom_line {o : Nat} {ts : List Token} {text : List Char}
    (placed : Placed [] o ts text) (more : List Char) :
    tokenizeFrom o (text ++ '\n' :: more) =
      ⟨ts ++ (tokenizeFrom (o + text.length + 1) more).list,
        (tokenizeFrom (o + text.length + 1) more).ending⟩ := by
  induction placed with
  | @ended o gap is =>
    have gap_ends := tokenizeFrom_gap (is.lastLine rfl more) o
    rw [List.append_assoc, List.length_append] at gap_ends
    exact gap_ends
  | @token o t ts gap rest is writable ends starts stops placed ih =>
    rw [List.append_nil] at is ends
    have some : t.lexeme.chars ++ rest ≠ [] := by simp [chars_ne_nil writable]
    have split : gap ++ (t.lexeme.chars ++ rest) ++ '\n' :: more =
        gap ++ (t.lexeme.chars ++ (rest ++ '\n' :: more)) := by simp
    have here : ⟨t.lexeme, o + gap.length, o + gap.length + t.lexeme.chars.length⟩ = t := by
      rw [← starts, ← stops]
    have is := is.line some more
    rw [List.append_assoc] at is
    rw [split, tokenizeFrom_gap is, tokenizeFrom_lexeme writable (ends.line more), here,
      ← starts, ← stops, ih]
    have length : t.stop + rest.length + 1 = o + (gap ++ (t.lexeme.chars ++ rest)).length + 1 := by
      simp only [stops, starts, List.length_append]
      omega
    rw [length]
    rfl

end Token

/-! ## Texts that are read to their end -/

/-- **The text ends inside a string literal**: behind its last token stands a quote that
begins one, and no quote closes it. -/
def Source.EndsInLiteral (source : Source) : Prop :=
  ∃ front body, source.text.toList = front ++ '"' :: body ∧
    Token.Placed ('"' :: body) 0 source.tokenize.list front ∧ Text.Quoted.scan body = none

/-- A text without a quote does not end inside a literal. -/
theorem Source.not_endsInLiteral {source : Source} (none : '"' ∉ source.text.toList) :
    ¬ source.EndsInLiteral := by
  rintro ⟨front, body, whole, -⟩
  exact none (by simp [whole])

/-- The tokens of a script stand in all of its text, unless it ends inside a literal. -/
theorem Source.placed_of_readScript {source : Source} {cs : List Command}
    (read : readScript source = .ok cs) (closed : ¬ source.EndsInLiteral) :
    Token.Placed [] 0 source.tokenize.list source.text.toList := by
  obtain ⟨-, text, tail, whole, placed, unread⟩ := taken_of_readAll read Reader.Takes.script
  cases unread with
  | nothing =>
    rw [whole, List.append_nil]
    exact placed
  | openLiteral never => exact absurd ⟨text, _, whole, placed, never⟩ closed

/-- A text, and another one on the next line. -/
def Source.joined (a b : Source) (location : Option String) : Source :=
  ⟨a.text ++ "\n" ++ b.text, location⟩

/-- **The tokens of a script with a text on the next line** are its own, and then those of
the text, moved behind it. -/
theorem Source.tokenize_joined {a : Source} {cs : List Command} (read : readScript a = .ok cs)
    (closed : ¬ a.EndsInLiteral) (b : Source) (location : Option String) :
    (a.joined b location).tokenize =
      ⟨a.tokenize.list ++ (b.tokenize.shift (a.text.length + 1)).list,
        (b.tokenize.shift (a.text.length + 1)).ending⟩ := by
  have found := Token.tokenizeFrom_line (placed_of_readScript read closed) b.text.toList
  have moved := Token.tokenizeFrom_shift (a.text.length + 1) 0 b.text.toList
  have chars : (a.text ++ "\n" ++ b.text).toList = a.text.toList ++ '\n' :: b.text.toList := by
    simp
  have same : 0 + a.text.toList.length + 1 = a.text.length + 1 + 0 := by
    rw [String.length_toList, Nat.zero_add, Nat.add_zero]
  rw [same, moved] at found
  rw [tokenize, joined, chars, found]
  rfl

end SmtSession
