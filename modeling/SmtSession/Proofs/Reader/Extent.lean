import SmtSession.Proofs.Reader.Layout

/-!
# Where the tokens of a text stand

**The tokens of a text account for all of it**: every character is in a gap or in a token,
and the range of a token is where it stands. This is the converse of what the tokens of a
layout are. `exists_gap` says what a text can begin with, and `exists_placed` follows the
tokenizer from there to the end.

There is one exception. A string literal that is never closed is no token and no error, so
the text is read as if it ended in front of it: `Unread`.
-/

namespace SmtSession

/-! ## Quotes and bars -/

namespace Text

/-- What is read of a literal is its content as it is escaped, up to a quote that no other
one follows. -/
theorem Quoted.eq_of_scan {cs content rest : List Char} (found : scan cs = some (content, rest)) :
    cs = escape content ++ '"' :: rest ∧ rest.head? ≠ some '"' := by
  fun_induction scan cs generalizing content with
  | case1 => cases found
  | case2 cs ih =>
    obtain ⟨⟨inner, rest'⟩, scanned, same⟩ := Option.map_eq_some_iff.mp found
    cases same
    obtain ⟨rfl, ends⟩ := ih scanned
    exact ⟨rfl, ends⟩
  | case3 cs other =>
    cases found
    refine ⟨rfl, fun quote => ?_⟩
    obtain ⟨behind, again⟩ := List.head?_eq_some_iff.mp quote
    exact other behind again
  | case4 c cs _ other ih =>
    obtain ⟨⟨inner, rest'⟩, scanned, same⟩ := Option.map_eq_some_iff.mp found
    cases same
    obtain ⟨rfl, ends⟩ := ih scanned
    have plain : escape (c :: inner) = c :: escape inner := by
      rw [escape]
      exact other
    rw [plain]
    exact ⟨rfl, ends⟩

/-- What ends at a bar behind one more character does so behind the others. -/
theorem Barred.Scan.closed_of_push {c : Char} {width : Nat} {s : Scan} {content rest : List Char}
    (found : s.push c width = .closed content rest) :
    ∃ inner, content = c :: inner ∧ s = .closed inner rest := by
  cases s with
  | closed inner r =>
    cases found
    exact ⟨inner, rfl, rfl⟩
  | badEscape behind => cases found
  | unclosed => cases found

/-- What is read of a quoted symbol is its content as it is escaped, up to the closing bar. -/
theorem Barred.eq_of_scan {cs content rest : List Char} (found : scan cs = .closed content rest) :
    cs = escape content ++ '|' :: rest := by
  fun_induction scan cs generalizing content with
  | case1 => cases found
  | case2 cs =>
    cases found
    rfl
  | case3 cs ih =>
    obtain ⟨inner, rfl, scanned⟩ := Scan.closed_of_push found
    rw [ih scanned]
    rfl
  | case4 cs ih =>
    obtain ⟨inner, rfl, scanned⟩ := Scan.closed_of_push found
    rw [ih scanned]
    rfl
  | case5 => cases found
  | case6 c cs bar _ _ backslash ih =>
    obtain ⟨inner, rfl, scanned⟩ := Scan.closed_of_push found
    have plain : escape (c :: inner) = c :: escape inner := by
      rw [escape, if_neg (not_or.mpr ⟨bar, backslash⟩)]
    rw [plain, ih scanned]
    rfl

end Text

/-! ## What a text begins with -/

/-- What can stand behind a gap: nothing, a lexeme, a string literal that is never closed, or
a quoted symbol that is malformed. -/
inductive Behind : List Char → Prop
  | nothing : Behind []
  | lexeme {l : Lexeme} {rest : List Char} (writable : l.Writable) (ends : l.Ends rest) :
      Behind (l.chars ++ rest)
  | openLiteral {body : List Char} (never : Text.Quoted.scan body = none) : Behind ('"' :: body)
  | brokenSymbol {body : List Char}
      (never : ∀ content rest, Text.Barred.scan body ≠ .closed content rest) : Behind ('|' :: body)

/-- What begins like an atom is one, up to where it ends, unless it is nothing but carriage
returns there. -/
theorem exists_atom {c : Char} {cs : List Char} (inner : Token.isDelimiter c = false)
    (some : ¬ (c = '\r' ∧ Token.Breaks cs)) :
    ∃ text rest, c :: cs = text ++ rest ∧ Lexeme.IsAtomText text ∧ Token.Breaks rest := by
  have alone {c : Char} {cs : List Char} (inner : Token.isDelimiter c = false)
      (some : ¬ (c = '\r' ∧ Token.Breaks cs)) (ends : Token.Breaks cs) :
      ∃ text rest, c :: cs = text ++ rest ∧ Lexeme.IsAtomText text ∧ Token.Breaks rest := by
    have other : c ≠ '\r' := fun same => some ⟨same, ends⟩
    exact ⟨[c], cs, rfl, ⟨nofun, by simpa using inner, by simpa using other⟩, ends⟩
  induction cs generalizing c with
  | nil => exact alone inner some trivial
  | cons d cs ih =>
    by_cases ends : Token.Breaks (d :: cs)
    · exact alone inner some ends
    · obtain ⟨inner_d, some_d⟩ := not_or.mp ends
      obtain ⟨text, rest, split, ⟨nonempty, all, last⟩, ends⟩ := ih (by simpa using inner_d) some_d
      refine ⟨c :: text, rest, by rw [split]; rfl, ⟨nofun, ?_, ?_⟩, ends⟩
      · exact List.forall_mem_cons.mpr ⟨inner, all⟩
      · rwa [List.getLast?_cons_of_ne_nil nonempty]

/-- What starts no gap is a lexeme, or is not read. -/
theorem behind_of_front {c : Char} (cs : List Char) (layout : Token.isLayout c = false)
    (comment : c ≠ ';') (some : ¬ (c = '\r' ∧ Token.Breaks cs)) : Behind (c :: cs) := by
  by_cases opening : c = '('
  · subst opening
    exact .lexeme (l := .opening) trivial trivial
  by_cases closing : c = ')'
  · subst closing
    exact .lexeme (l := .closing) trivial trivial
  by_cases bar : c = '|'
  · subst bar
    cases scanned : Text.Barred.scan cs with
    | closed content rest =>
      have whole : '|' :: cs = (Lexeme.quoted (String.ofList content)).chars ++ rest := by
        rw [Text.Barred.eq_of_scan scanned]
        simp [Lexeme.chars]
      rw [whole]
      exact .lexeme trivial trivial
    | badEscape _ | unclosed =>
      refine .brokenSymbol fun content rest closes => ?_
      rw [scanned] at closes
      cases closes
  by_cases quote : c = '"'
  · subst quote
    cases scanned : Text.Quoted.scan cs with
    | none => exact .openLiteral scanned
    | some found =>
      obtain ⟨content, rest⟩ := found
      obtain ⟨split, ends⟩ := Text.Quoted.eq_of_scan scanned
      have whole : '"' :: cs = (Lexeme.string (String.ofList content)).chars ++ rest := by
        rw [split]
        simp [Lexeme.chars]
      rw [whole]
      exact .lexeme trivial ends
  · have inner : Token.isDelimiter c = false := by
      simp [Token.isDelimiter, layout, opening, closing, bar, quote, comment]
    obtain ⟨text, rest, split, atom, ends⟩ := exists_atom inner some
    have whole : c :: cs = (Lexeme.plain (String.ofList text)).chars ++ rest := by
      rw [split, Lexeme.chars, String.toList_ofList]
    rw [whole]
    exact .lexeme (by rwa [Lexeme.Writable, String.toList_ofList]) ends

/-- A comment grows in front, as long as its line does. -/
theorem Gap.comment_cons {c : Char} {gap rest : List Char} (is : Gap (';' :: gap) rest)
    (other : c ≠ '\n') : Gap (';' :: c :: gap) rest := by
  cases is with
  | layout is _ => cases is
  | @comment body gap _ line more =>
    have line : '\n' ∉ c :: body := by simp [line, Ne.symm other]
    exact .comment line more
  | lastComment line => exact .lastComment (by simp [line, Ne.symm other])

/-- **Every text begins with a gap**, behind which a lexeme stands if anything is read. -/
theorem exists_gap (cs : List Char) :
    ∃ gap rest, cs = gap ++ rest ∧ Gap gap rest ∧ Behind rest := by
  -- the induction goes on inside comments
  have both : (∃ gap rest, cs = gap ++ rest ∧ Gap gap rest ∧ Behind rest) ∧
      ∃ gap rest, cs = gap ++ rest ∧ Gap (';' :: gap) rest ∧ Behind rest := by
    induction cs with
    | nil => exact ⟨⟨[], [], rfl, .none, .nothing⟩, [], [], rfl, .lastComment nofun, .nothing⟩
    | cons c cs ih =>
      obtain ⟨⟨gap, rest, split, is, behind⟩, body, rest', split', is', behind'⟩ := ih
      refine ⟨?_, ?_⟩
      · by_cases layout : Token.isLayout c = true
        · exact ⟨c :: gap, rest, by rw [split]; rfl, .layout layout is, behind⟩
        by_cases comment : c = ';'
        · subst comment
          exact ⟨';' :: body, rest', by rw [split']; rfl, is', behind'⟩
        by_cases returns : c = '\r' ∧ Token.Breaks cs
        · obtain ⟨rfl, ends⟩ := returns
          exact ⟨'\r' :: gap, rest, by rw [split]; rfl, .carriageReturn (split ▸ ends) is, behind⟩
        · have none : Behind (c :: cs) := behind_of_front cs (by simpa using layout) comment returns
          exact ⟨[], c :: cs, rfl, .none, none⟩
      · by_cases feed : c = '\n'
        · subst feed
          have line : '\n' ∉ ([] : List Char) := nofun
          exact ⟨'\n' :: gap, rest, by rw [split]; rfl, .comment line is, behind⟩
        · exact ⟨c :: body, rest', by rw [split']; rfl, is'.comment_cons feed, behind'⟩
  exact both.1

/-! ## Tokens at their places -/

/-- The part of a text between two offsets. -/
def Source.slice (source : Source) (start stop : Nat) : String :=
  String.ofList ((source.text.toList.drop start).take (stop - start))

/-- What stands behind some characters, up to others, is the part between the two offsets. -/
theorem Source.slice_eq {source : Source} {before here after : List Char}
    (whole : source.text.toList = before ++ (here ++ after)) :
    source.slice before.length (before.length + here.length) = String.ofList here := by
  rw [slice, whole, List.drop_left, Nat.add_sub_cancel_left, List.take_left]

/-- What is behind the last token and its gap: nothing, or a string literal that is never
closed, which is not read. -/
inductive Unread : List Char → Prop
  | nothing : Unread []
  | openLiteral {body : List Char} (never : Text.Quoted.scan body = none) : Unread ('"' :: body)

/-- What starts like a quoted symbol and is malformed. -/
def Broken (cs : List Char) : Prop :=
  ∃ body, cs = '|' :: body ∧ ∀ content rest, Text.Barred.scan body ≠ .closed content rest

namespace Token

/-- **Tokens stand in a text** that begins at an offset: each behind a gap, with the range
that its characters have there, and a gap behind the last. What is not read follows. -/
inductive Placed (tail : List Char) : Nat → List Token → List Char → Prop
  | ended {o : Nat} {gap : List Char} (is : Gap gap tail) : Placed tail o [] gap
  | token {o : Nat} {t : Token} {ts : List Token} {gap rest : List Char}
      (is : Gap gap (t.lexeme.chars ++ (rest ++ tail))) (writable : t.lexeme.Writable)
      (ends : t.lexeme.Ends (rest ++ tail)) (starts : t.start = o + gap.length)
      (stops : t.stop = t.start + t.lexeme.chars.length) (more : Placed tail t.stop ts rest) :
      Placed tail o (t :: ts) (gap ++ (t.lexeme.chars ++ rest))

/-- A lexeme takes some characters. -/
theorem chars_ne_nil {l : Lexeme} (writable : l.Writable) : l.chars ≠ [] := by
  cases l with
  | plain text => exact writable.nonempty
  | _ => nofun

/-- At a quoted symbol that is malformed the tokens do not end well. -/
theorem tokenizeFrom_brokenSymbol {body : List Char}
    (never : ∀ content rest, Text.Barred.scan body ≠ .closed content rest) (o : Nat) :
    (tokenizeFrom o ('|' :: body)).list = [] ∧
      ∀ n, (tokenizeFrom o ('|' :: body)).ending ≠ .finished n := by
  rw [tokenizeFrom_of_cons (skipGap_of_token (by decide) (by decide)), front, if_neg (by decide),
    if_neg (by decide), if_pos rfl]
  cases scanned : Text.Barred.scan body with
  | closed content rest => exact absurd scanned (never content rest)
  | badEscape _ | unclosed =>
    refine ⟨rfl, fun n well => ?_⟩
    cases well

/-- In front of a string literal that is never closed the text is taken to end. -/
theorem tokenizeFrom_openLiteral {body : List Char} (never : Text.Quoted.scan body = none)
    (o : Nat) : tokenizeFrom o ('"' :: body) = ⟨[], .finished o⟩ := by
  rw [tokenizeFrom_of_cons (skipGap_of_token (by decide) (by decide)), front, if_neg (by decide),
    if_neg (by decide), if_neg (by decide), if_pos rfl, never]
  rfl

/-- **The tokens of a text stand in it**, and when they end well they leave nothing of it
unread but a string literal that is never closed; otherwise a malformed symbol follows. -/
theorem exists_placed (o : Nat) (cs : List Char) :
    ∃ front tail, cs = front ++ tail ∧ Placed tail o (tokenizeFrom o cs).list front ∧
      (Unread tail ∨ Broken tail ∧ ∀ n, (tokenizeFrom o cs).ending ≠ .finished n) := by
  obtain ⟨gap, rest, whole, is, behind⟩ := exists_gap cs
  rw [whole, tokenizeFrom_gap is]
  cases behind with
  | nothing =>
    rw [tokenizeFrom_of_nil (show skipGap [] = (0, []) by rw [skipGap])]
    exact ⟨gap, [], rfl, .ended is, .inl .nothing⟩
  | @lexeme l rest writable ends =>
    have shorter : rest.length < cs.length := by
      have some := List.length_pos_iff.mpr (chars_ne_nil writable)
      simp only [whole, List.length_append]
      omega
    rw [tokenizeFrom_lexeme writable ends]
    obtain ⟨front, tail, rfl, placed, unread⟩ :=
      exists_placed (o + gap.length + l.chars.length) rest
    refine ⟨gap ++ (l.chars ++ front), tail, by simp, ?_, unread⟩
    exact .token is writable ends rfl rfl placed
  | openLiteral never =>
    rw [tokenizeFrom_openLiteral never]
    exact ⟨gap, _, rfl, .ended is, .inl (.openLiteral never)⟩
  | brokenSymbol never =>
    obtain ⟨none, broken⟩ := tokenizeFrom_brokenSymbol never (o + gap.length)
    rw [none]
    exact ⟨gap, _, rfl, .ended is, .inr ⟨⟨_, rfl, never⟩, broken⟩⟩
termination_by cs.length
decreasing_by exact shorter

theorem Placed.writable {tail : List Char} {o : Nat} {ts : List Token} {text : List Char}
    (placed : Placed tail o ts text) : ∀ t ∈ ts, t.lexeme.Writable := by
  induction placed with
  | ended _ => nofun
  | token _ writable _ _ _ _ ih => exact List.forall_mem_cons.mpr ⟨writable, ih⟩

/-- What tokens stand in front of others, they leave the others at their places. -/
theorem Placed.drop {tail : List Char} {o : Nat} {us ts : List Token} {text : List Char}
    (placed : Placed tail o (us ++ ts) text) :
    ∃ front rest, text = front ++ rest ∧ Placed tail (o + front.length) ts rest := by
  induction us generalizing o text with
  | nil => exact ⟨[], text, rfl, placed⟩
  | cons t us ih =>
    cases placed with
    | @token _ _ _ gap rest is writable ends starts stops more =>
      obtain ⟨front, left, rfl, placed⟩ := ih more
      refine ⟨gap ++ (t.lexeme.chars ++ front), left, by simp, ?_⟩
      have same : o + (gap ++ (t.lexeme.chars ++ front)).length = t.stop + front.length := by
        simp only [stops, starts, List.length_append, Nat.add_assoc]
      rwa [same]

/-- **At its range a token stands as it is written.** -/
theorem Placed.slice {source : Source} {tail : List Char} {ts : List Token} {text : List Char}
    (placed : Placed tail 0 ts text) (whole : source.text.toList = text ++ tail) {t : Token}
    (is : t ∈ ts) : t.stop ≤ source.text.toList.length ∧
      source.slice t.start t.stop = String.ofList t.lexeme.chars := by
  obtain ⟨before, after, rfl⟩ := List.append_of_mem is
  obtain ⟨front, rest, rfl, behind⟩ := placed.drop
  cases behind with
  | @token _ _ _ gap rest _ _ _ starts stops _ =>
    have split : source.text.toList = (front ++ gap) ++ (t.lexeme.chars ++ (rest ++ tail)) := by
      rw [whole]
      simp
    rw [stops, starts, Nat.zero_add, ← List.length_append]
    refine ⟨?_, Source.slice_eq split⟩
    rw [split]
    simp only [List.length_append]
    omega

/-- Tokens stand behind the offset that the text begins at. -/
theorem Placed.from_offset {tail : List Char} {o : Nat} {ts : List Token} {text : List Char}
    (placed : Placed tail o ts text) : ∀ t ∈ ts, o ≤ t.start := by
  induction placed with
  | ended _ => nofun
  | token _ _ _ starts stops _ ih =>
    refine List.forall_mem_cons.mpr ⟨by omega, fun u is => ?_⟩
    have behind := ih u is
    omega

/-- **Tokens stand one behind the other**, and each takes some characters. -/
theorem Placed.ordered {tail : List Char} {o : Nat} {ts : List Token} {text : List Char}
    (placed : Placed tail o ts text) :
    (∀ t ∈ ts, t.start < t.stop) ∧ ts.Pairwise fun t u => t.stop ≤ u.start := by
  induction placed with
  | ended _ => exact ⟨nofun, .nil⟩
  | token _ writable _ _ stops more ih =>
    have some := List.length_pos_iff.mpr (chars_ne_nil writable)
    exact ⟨List.forall_mem_cons.mpr ⟨by omega, ih.1⟩, .cons more.from_offset ih.2⟩

/-- **No atom of a text contains a delimiter.** -/
theorem isDelimiter_of_plain {o : Nat} {cs : List Char} {t : Token} {text : String}
    (is : t ∈ (tokenizeFrom o cs).list) (plain : t.lexeme = .plain text) :
    ∀ c ∈ text.toList, isDelimiter c = false := by
  obtain ⟨front, tail, -, placed, -⟩ := exists_placed o cs
  have writable := placed.writable t is
  rw [plain] at writable
  exact writable.inner

end Token

/-! ## Parts of a text -/

/-- **Characters spell lexemes in front of others** without a gap at either end: from the
first character of the first lexeme to the last character of the last one. -/
inductive Written (behind : List Char) : List Lexeme → List Char → Prop
  | last {l : Lexeme} (writable : l.Writable) (ends : l.Ends behind) : Written behind [l] l.chars
  | lexeme {l : Lexeme} {ls : List Lexeme} {gap rest : List Char} (writable : l.Writable)
      (ends : l.Ends (gap ++ (rest ++ behind))) (is : Gap gap (rest ++ behind))
      (more : Written behind ls rest) : Written behind (l :: ls) (l.chars ++ (gap ++ rest))

/-- What some tokens take of a text, with the gap in front of them and what is left behind. -/
theorem Token.Placed.split {tail : List Char} {o : Nat} {first : Token} {more ts : List Token}
    {text : List Char} (placed : Placed tail o (first :: (more ++ ts)) text) :
    ∃ before written rest, text = before ++ (written ++ rest) ∧
      Gap before (written ++ (rest ++ tail)) ∧
      Written (rest ++ tail) ((first :: more).map Token.lexeme) written ∧
      first.start = o + before.length ∧
      (more.getLastD first).stop = o + before.length + written.length ∧
      Placed tail (more.getLastD first).stop ts rest := by
  induction more generalizing first o text with
  | nil =>
    cases placed with
    | @token _ _ _ gap rest is writable ends starts stops placed =>
      refine ⟨gap, first.lexeme.chars, rest, rfl, is, .last writable ends, starts, ?_, placed⟩
      rw [List.getLastD_nil, stops, starts]
  | cons second more ih =>
    cases placed with
    | @token _ _ _ gap rest is writable ends starts stops placed =>
      obtain ⟨inner, written, left, rfl, inner_is, here, second_starts, last_stops, placed⟩ :=
        ih placed
      refine ⟨gap, first.lexeme.chars ++ (inner ++ written), left, by simp, ?_, ?_, starts, ?_, ?_⟩
      · simpa using is
      · exact .lexeme writable (by simpa using ends) inner_is here
      · rw [List.getLastD_cons, last_stops, stops, starts]
        simp only [List.length_append]
        omega
      · rwa [List.getLastD_cons]

/-! ## Parts of a text without what follows -/

theorem Token.Breaks.alone {cs behind : List Char} (ends : Breaks (cs ++ behind)) : Breaks cs := by
  induction cs with
  | nil => trivial
  | cons c cs ih => exact ends.imp_right fun ⟨is, ends⟩ => ⟨is, ih ends⟩

theorem Lexeme.Ends.alone {l : Lexeme} {cs behind : List Char} (ends : l.Ends (cs ++ behind)) :
    l.Ends cs := by
  cases l with
  | plain => exact Token.Breaks.alone ends
  | string =>
    cases cs with
    | nil => nofun
    | cons => exact ends
  | _ => trivial

theorem Gap.alone {gap rest cs behind : List Char} (is : Gap gap rest)
    (same : rest = cs ++ behind) : Gap gap cs := by
  induction is with
  | none => exact .none
  | layout is _ ih => exact .layout is (ih same)
  | comment line _ ih => exact .comment line (ih same)
  | lastComment line =>
    obtain ⟨rfl, -⟩ := List.append_eq_nil_iff.mp same.symm
    exact .lastComment line
  | @carriageReturn gap rest ends _ ih =>
    rw [same, ← List.append_assoc] at ends
    exact .carriageReturn ends.alone (ih same)

/-- What is written in front of other characters is written without them too. -/
theorem Written.alone {behind : List Char} {ls : List Lexeme} {cs : List Char}
    (here : Written behind ls cs) : Written [] ls cs := by
  induction here with
  | @last l writable ends =>
    have ends : l.Ends ([] ++ behind) := ends
    exact .last writable ends.alone
  | @lexeme l ls gap rest writable ends is _ ih =>
    rw [← List.append_assoc] at ends
    refine .lexeme writable ?_ ?_ ih
    · rw [List.append_nil]
      exact Lexeme.Ends.alone ends
    · rw [List.append_nil]
      exact is.alone rfl

/-- Characters that are written in front of a layout make one with it. -/
theorem Written.laid {ls ls' : List Lexeme} {gap written rest : List Char}
    (here : Written rest ls written) (is : Gap gap (written ++ rest)) (more : Laid ls' rest) :
    Laid (ls ++ ls') (gap ++ (written ++ rest)) := by
  induction here generalizing gap with
  | last writable ends => exact .lexeme is writable ends more
  | @lexeme l ls inner written writable ends inner_is here ih =>
    rw [List.append_assoc, List.append_assoc] at is ⊢
    exact .lexeme is writable ends (ih inner_is)

/-- What is written alone is a layout. -/
theorem Written.laid_alone {behind : List Char} {ls : List Lexeme} {cs : List Char}
    (here : Written behind ls cs) : Laid ls cs := by
  have no_gap {rest : List Char} : Gap [] rest := .none
  simpa using here.alone.laid no_gap (.ended no_gap)

end SmtSession
