import SmtSession.Token

/-!
# Texts that spell given lexemes

**A layout** of lexemes is a text in which they stand in order, with gaps
between them: spaces, tabs, line feeds, comments, and carriage returns that
belong to no atom. `Laid` says which gaps are needed: none next to a parenthesis
or a bar, and between two atoms anything that ends the first.

`tokenizeFrom_laid` says that the tokens of a layout are the lexemes, each with
the range that it takes. `laid_spaced` gives one layout of any lexemes that can be
written at all, with a space behind each.
-/

namespace SmtSession

/-! ## Quotes and bars -/

namespace Text

/-- A literal is read up to its closing quote, unless another quote follows. -/
theorem Quoted.scan_escape (cs : List Char) {rest : List Char} (ends : rest.head? ≠ some '"') :
    scan (escape cs ++ '"' :: rest) = some (cs, rest) := by
  induction cs with
  | nil =>
    cases rest with
    | nil => rfl
    | cons c rest =>
      have other : c ≠ '"' := fun same => ends (by rw [same]; rfl)
      simp [escape, scan, other]
  | cons c cs ih =>
    by_cases quote : c = '"'
    · subst quote
      show (scan (escape cs ++ '"' :: rest)).map _ = _
      rw [ih]
      rfl
    · have plain : escape (c :: cs) = c :: escape cs := by simp [escape]
      rw [plain, List.cons_append, scan, ih]
      · rfl
      · simp [quote]
      · simp [quote]

/-- A quoted symbol is read up to its closing bar. -/
theorem Barred.scan_escape (cs rest : List Char) :
    scan (escape cs ++ '|' :: rest) = .closed cs rest := by
  induction cs with
  | nil => rfl
  | cons c cs ih =>
    by_cases escaped : c = '|' ∨ c = '\\'
    · rw [escape, if_pos escaped]
      rcases escaped with rfl | rfl
      · show (scan (escape cs ++ '|' :: rest)).push _ _ = _
        rw [ih]
        rfl
      · show (scan (escape cs ++ '|' :: rest)).push _ _ = _
        rw [ih]
        rfl
    · rw [escape, if_neg escaped]
      obtain ⟨bar, backslash⟩ := not_or.mp escaped
      rw [List.cons_append, scan, ih]
      · rfl
      · exact bar
      · exact fun _ same => absurd same backslash
      · exact fun _ same => absurd same backslash
      · exact backslash

end Text

/-! ## Lexemes as they are written -/

/-- The characters that a lexeme is written with. -/
def Lexeme.chars : Lexeme → List Char
  | .opening => ['(']
  | .closing => [')']
  | .plain text => text.toList
  | .quoted name => '|' :: (Text.Barred.escape name.toList ++ ['|'])
  | .string content => '"' :: (Text.Quoted.escape content.toList ++ ['"'])

/-- A text that can be an atom: some characters, no delimiter among them, and no
carriage return at the end. -/
structure Lexeme.IsAtomText (text : List Char) : Prop where
  nonempty : text ≠ []
  inner : ∀ c ∈ text, Token.isDelimiter c = false
  last : text.getLast? ≠ some '\r'

/-- A lexeme that some text has. -/
def Lexeme.Writable : Lexeme → Prop
  | .plain text => IsAtomText text.toList
  | _ => True

/-- An atom ends in front of these characters: behind carriage returns comes a
delimiter or nothing. -/
def Token.Breaks : List Char → Prop
  | [] => True
  | c :: cs => isDelimiter c = true ∨ c = '\r' ∧ Breaks cs

/-- A lexeme ends in front of these characters. -/
def Lexeme.Ends (rest : List Char) : Lexeme → Prop
  | .plain _ => Token.Breaks rest
  | .string _ => rest.head? ≠ some '"'
  | _ => True

/-- **A gap** holds no token, in front of what follows it. -/
inductive Gap : List Char → List Char → Prop
  | none {rest : List Char} : Gap [] rest
  | layout {c : Char} {gap rest : List Char} (is : Token.isLayout c = true) (more : Gap gap rest) :
      Gap (c :: gap) rest
  | comment {body gap rest : List Char} (line : '\n' ∉ body) (more : Gap gap rest) :
      Gap (';' :: (body ++ '\n' :: gap)) rest
  | lastComment {body : List Char} (line : '\n' ∉ body) : Gap (';' :: body) []
  | carriageReturn {gap rest : List Char} (ends : Token.Breaks (gap ++ rest))
      (more : Gap gap rest) : Gap ('\r' :: gap) rest

/-- **A layout of lexemes**: each behind a gap, up to where it ends. -/
inductive Laid : List Lexeme → List Char → Prop
  | ended {gap : List Char} (is : Gap gap []) : Laid [] gap
  | lexeme {l : Lexeme} {ls : List Lexeme} {gap rest : List Char} (is : Gap gap (l.chars ++ rest))
      (writable : l.Writable) (ends : l.Ends rest) (more : Laid ls rest) :
      Laid (l :: ls) (gap ++ (l.chars ++ rest))

namespace Token

/-! ## One step of the tokenizer -/

theorem tokenizeFrom_of_nil {o n : Nat} {cs : List Char} (gap : skipGap cs = (n, [])) :
    tokenizeFrom o cs = ⟨[], .finished (o + n)⟩ := by
  rw [tokenizeFrom]
  split
  · next m found =>
    rw [gap] at found
    cases found
    rfl
  · next found =>
    rw [gap] at found
    cases found

theorem tokenizeFrom_of_cons {o n : Nat} {cs behind : List Char} {c : Char}
    (gap : skipGap cs = (n, c :: behind)) :
    tokenizeFrom o cs =
      match front (o + n) c behind with
      | .token t next rest => (tokenizeFrom next rest).push t
      | .returns next rest => tokenizeFrom next rest
      | .ended ending => ⟨[], ending⟩ := by
  rw [tokenizeFrom]
  split
  · next found =>
    rw [gap] at found
    cases found
  · next m d behind' found =>
    rw [gap] at found
    cases found
    split <;> rename_i found <;> rw [found]

/-- What is skipped in front changes nothing but the offset. -/
theorem tokenizeFrom_skip {o k : Nat} {cs rest : List Char}
    (skips : skipGap cs = (k + (skipGap rest).1, (skipGap rest).2)) :
    tokenizeFrom o cs = tokenizeFrom (o + k) rest := by
  cases found : skipGap rest with
  | mk n behind =>
    rw [found] at skips
    cases behind with
    | nil => rw [tokenizeFrom_of_nil skips, tokenizeFrom_of_nil found, Nat.add_assoc]
    | cons c behind =>
      rw [tokenizeFrom_of_cons skips, tokenizeFrom_of_cons found, Nat.add_assoc]

/-- A text that starts with a token has no gap in front. -/
theorem skipGap_of_token {c : Char} {cs : List Char} (layout : isLayout c = false)
    (comment : c ≠ ';') : skipGap (c :: cs) = (0, c :: cs) := by
  rw [skipGap, layout, if_neg comment]
  rfl

/-- The rest of a line is skipped with its line feed. -/
theorem skipComment_line {body : List Char} (line : '\n' ∉ body) (rest : List Char) :
    skipComment (body ++ '\n' :: rest) =
      (body.length + 1 + (skipGap rest).1, (skipGap rest).2) := by
  induction body with
  | nil => simp [skipComment, Nat.add_comm]
  | cons c cs ih =>
    obtain ⟨other, line⟩ := not_or.mp (mt List.mem_cons.mpr line)
    have inner := ih line
    simp only [List.cons_append, skipComment, if_neg (Ne.symm other), inner, List.length_cons]
    congr 1
    omega

/-- The rest of the last line is skipped to its end. -/
theorem skipComment_end {body : List Char} (line : '\n' ∉ body) :
    skipComment body = (body.length, []) := by
  induction body with
  | nil => rfl
  | cons c cs ih =>
    obtain ⟨other, line⟩ := not_or.mp (mt List.mem_cons.mpr line)
    simp only [skipComment, if_neg (Ne.symm other), ih line, List.length_cons]

/-! ## Gaps -/

/-- The text of an atom, which loses the carriage returns at its end. -/
abbrev trim (cs : List Char) : List Char := Text.dropTrailing (fun c => decide (c = '\r')) cs

/-- A run of characters that no delimiter is among, in front of what follows it. -/
abbrev run (cs : List Char) : List Char := cs.takeWhile fun c => !isDelimiter c

/-- What follows such a run. -/
abbrev afterRun (cs : List Char) : List Char := cs.dropWhile fun c => !isDelimiter c

theorem isDelimiter_return : isDelimiter '\r' = false := by decide

/-- Where an atom ends, the run holds carriage returns only. -/
theorem run_of_breaks {cs : List Char} (ends : Breaks cs) : ∀ c ∈ run cs, c = '\r' := by
  induction cs with
  | nil => nofun
  | cons c cs ih =>
    rcases ends with delimiter | ⟨rfl, ends⟩
    · simp [run, delimiter]
    · rw [run, List.takeWhile_cons_of_pos (by simp [isDelimiter_return])]
      intro d is
      rcases List.mem_cons.mp is with rfl | is
      · rfl
      · exact ih ends d is

/-- What would all be dropped from the end leaves nothing. -/
theorem dropTrailing_eq_nil {p : α → Bool} {as : List α} (all : ∀ a ∈ as, p a = true) :
    Text.dropTrailing p as = [] := by
  induction as with
  | nil => rfl
  | cons a as ih =>
    rw [Text.dropTrailing, ih fun b is => all b (List.mem_cons_of_mem _ is)]
    exact if_pos (all a List.mem_cons_self)

/-- Carriage returns that no atom holds are read past, up to what ended them. -/
theorem tokenizeFrom_run {cs : List Char} (ends : Breaks cs) (o : Nat) :
    tokenizeFrom o cs = tokenizeFrom (o + (run cs).length) (afterRun cs) := by
  cases cs with
  | nil => rfl
  | cons c cs =>
    rcases ends with delimiter | ⟨rfl, ends⟩
    · simp [run, afterRun, delimiter]
    · have positive : ∀ d ∈ '\r' :: run cs, (decide (d = '\r')) = true := by
        intro d is
        rcases List.mem_cons.mp is with rfl | is
        · rfl
        · exact decide_eq_true (run_of_breaks ends d is)
      have returns : front (o + 0) '\r' cs =
          .returns (o + ('\r' :: run cs).length) (afterRun cs) := by
        show (if (trim ('\r' :: run cs)).isEmpty then
          Front.returns (o + ('\r' :: run cs).length) (afterRun cs) else _) = _
        have nothing : trim ('\r' :: run cs) = [] := dropTrailing_eq_nil positive
        rw [nothing]
        rfl
      rw [tokenizeFrom_of_cons (skipGap_of_token (by decide) (by decide)), returns]
      simp [run, afterRun, isDelimiter_return]

/-- **A gap is read past.** -/
theorem tokenizeFrom_gap {gap rest : List Char} (is : Gap gap rest) (o : Nat) :
    tokenizeFrom o (gap ++ rest) = tokenizeFrom (o + gap.length) rest := by
  induction is generalizing o with
  | none => rfl
  | @layout c gap rest is more ih =>
    have skips : skipGap (c :: (gap ++ rest)) =
        (1 + (skipGap (gap ++ rest)).1, (skipGap (gap ++ rest)).2) := by
      rw [skipGap, is, Nat.add_comm]
      rfl
    rw [List.cons_append, tokenizeFrom_skip skips, ih, List.length_cons, Nat.add_assoc,
      Nat.add_comm 1]
  | @comment body gap rest line more ih =>
    have skips : skipGap (';' :: (body ++ '\n' :: (gap ++ rest))) =
        (body.length + 2 + (skipGap (gap ++ rest)).1, (skipGap (gap ++ rest)).2) := by
      rw [skipGap, if_neg (by decide), if_pos rfl, skipComment_line line]
      simp only [Prod.mk.injEq, and_true]
      omega
    have whole : ';' :: (body ++ '\n' :: gap) ++ rest =
        ';' :: (body ++ '\n' :: (gap ++ rest)) := by simp
    rw [whole, tokenizeFrom_skip skips, ih]
    congr 1
    simp only [List.length_cons, List.length_append]
    omega
  | @lastComment body line =>
    have skips : skipGap (';' :: body) = (body.length + 1 + 0, []) := by
      rw [skipGap, if_neg (by decide), if_pos rfl, skipComment_end line]
    rw [List.append_nil, tokenizeFrom_of_nil skips]
    exact (tokenizeFrom_of_nil (n := 0) (by rw [skipGap])).symm
  | @carriageReturn gap rest ends more ih =>
    have first : Breaks ('\r' :: (gap ++ rest)) := Or.inr ⟨rfl, ends⟩
    have grows : run ('\r' :: (gap ++ rest)) = '\r' :: run (gap ++ rest) := by
      simp [run, isDelimiter_return]
    have same : afterRun ('\r' :: (gap ++ rest)) = afterRun (gap ++ rest) := by
      simp [afterRun, isDelimiter_return]
    calc tokenizeFrom o ('\r' :: (gap ++ rest))
        = tokenizeFrom (o + 1 + (run (gap ++ rest)).length) (afterRun (gap ++ rest)) := by
          rw [tokenizeFrom_run first, grows, same, List.length_cons, Nat.add_assoc, Nat.add_comm 1]
      _ = tokenizeFrom (o + 1) (gap ++ rest) := (tokenizeFrom_run ends (o + 1)).symm
      _ = tokenizeFrom (o + ('\r' :: gap).length) rest := by
          rw [ih, List.length_cons, Nat.add_assoc, Nat.add_comm 1]

/-! ## Lexemes -/

/-- What is not dropped from the end stays. -/
theorem dropTrailing_of_last {p : α → Bool} {as bs : List α} (all : ∀ b ∈ bs, p b = true)
    (last : ∀ a, as.getLast? = some a → p a = false) (some : as ≠ []) :
    Text.dropTrailing p (as ++ bs) = as := by
  induction as with
  | nil => exact absurd rfl some
  | cons a as ih =>
    rw [List.cons_append, Text.dropTrailing]
    cases as with
    | nil =>
      rw [List.nil_append, dropTrailing_eq_nil all]
      exact if_neg (by simp [last a rfl])
    | cons b as =>
      rw [ih (fun c is => last c (by rw [List.getLast?_cons_cons, is])) nofun]

/-- A text that starts with a token gives that token first. -/
theorem tokenizeFrom_token {o next : Nat} {c : Char} {cs rest : List Char} {t : Token}
    (layout : isLayout c = false) (comment : c ≠ ';') (found : front o c cs = .token t next rest) :
    tokenizeFrom o (c :: cs) = (tokenizeFrom next rest).push t := by
  rw [tokenizeFrom_of_cons (skipGap_of_token layout comment), Nat.add_zero, found]

/-- The first character of an atom starts no other token. -/
theorem front_atom {c : Char} (inner : isDelimiter c = false) (o : Nat) (cs : List Char) :
    front o c cs =
      if (trim (c :: run cs)).isEmpty then
        .returns (o + (c :: run cs).length) (afterRun cs)
      else
        .token ⟨.plain (String.ofList (trim (c :: run cs))), o, o + (trim (c :: run cs)).length⟩
          (o + (c :: run cs).length) (afterRun cs) := by
  have others : c ≠ '(' ∧ c ≠ ')' ∧ c ≠ '|' ∧ c ≠ '"' := by
    refine ⟨?_, ?_, ?_, ?_⟩ <;> rintro rfl <;> cases inner
  obtain ⟨opening, closing, bar, quote⟩ := others
  rw [front, if_neg opening, if_neg closing, if_neg bar, if_neg quote]

/-- **A lexeme is read up to where it ends**, with the range it takes. -/
theorem tokenizeFrom_lexeme {l : Lexeme} {rest : List Char} (writable : l.Writable)
    (ends : l.Ends rest) (o : Nat) :
    tokenizeFrom o (l.chars ++ rest) =
      (tokenizeFrom (o + l.chars.length) rest).push ⟨l, o, o + l.chars.length⟩ := by
  cases l with
  | opening => exact tokenizeFrom_token (by decide) (by decide) rfl
  | closing => exact tokenizeFrom_token (by decide) (by decide) rfl
  | quoted name =>
    have chars : Lexeme.chars (.quoted name) ++ rest =
        '|' :: (Text.Barred.escape name.toList ++ '|' :: rest) := by simp [Lexeme.chars]
    have length : (Lexeme.quoted name).chars.length =
        1 + ((Text.Barred.escape name.toList ++ '|' :: rest).length - rest.length) := by
      simp only [Lexeme.chars, List.length_cons, List.length_append, List.length_nil]
      omega
    rw [chars]
    refine tokenizeFrom_token (by decide) (by decide) ?_
    rw [front, if_neg (by decide), if_neg (by decide), if_pos rfl, Text.Barred.scan_escape]
    simp only [String.ofList_toList, length, Nat.add_assoc]
  | string content =>
    have chars : Lexeme.chars (.string content) ++ rest =
        '"' :: (Text.Quoted.escape content.toList ++ '"' :: rest) := by simp [Lexeme.chars]
    have length : (Lexeme.string content).chars.length =
        1 + ((Text.Quoted.escape content.toList ++ '"' :: rest).length - rest.length) := by
      simp only [Lexeme.chars, List.length_cons, List.length_append, List.length_nil]
      omega
    rw [chars]
    refine tokenizeFrom_token (by decide) (by decide) ?_
    rw [front, if_neg (by decide), if_neg (by decide), if_neg (by decide), if_pos rfl,
      Text.Quoted.scan_escape _ ends]
    simp only [String.ofList_toList, length, Nat.add_assoc]
  | plain text =>
    obtain ⟨some, inner, last⟩ := writable
    have kept : ∀ c ∈ text.toList, (!isDelimiter c) = true := fun c is => by rw [inner c is]; rfl
    have whole : run (text.toList ++ rest) = text.toList ++ run rest :=
      List.takeWhile_append_of_pos kept
    have behind : afterRun (text.toList ++ rest) = afterRun rest :=
      List.dropWhile_append_of_pos kept
    have returns : ∀ d ∈ run rest, decide (d = '\r') = true := fun d is =>
      decide_eq_true (run_of_breaks ends d is)
    have trimmed : trim (text.toList ++ run rest) =
        text.toList :=
      dropTrailing_of_last returns (fun a is => decide_eq_false fun same => last (same ▸ is)) some
    show tokenizeFrom o (text.toList ++ rest) = _
    rw [tokenizeFrom_run ends]
    cases chars : text.toList with
    | nil => exact absurd chars some
    | cons c cs =>
      have first : isDelimiter c = false := inner c (by rw [chars]; exact List.mem_cons_self)
      have layout : isLayout c = false := by
        cases is : isLayout c with
        | false => rfl
        | true => simp [isDelimiter, is] at first
      have comment : c ≠ ';' := by
        rintro rfl
        cases first
      rw [chars, List.cons_append, run, List.takeWhile_cons_of_pos (by simp [first])] at whole
      rw [chars, List.cons_append, afterRun, List.dropWhile_cons_of_pos (by simp [first])] at behind
      rw [chars] at trimmed
      have found : front o c (cs ++ rest) = .token ⟨.plain text, o, o + text.toList.length⟩
          (o + text.toList.length + (run rest).length) (afterRun rest) := by
        replace behind : afterRun (cs ++ rest) = afterRun rest := behind
        rw [front_atom first, whole, trimmed, behind,
          if_neg (by simp), ← chars, String.ofList_toList, List.length_append, Nat.add_assoc]
      rw [List.cons_append, tokenizeFrom_token layout comment found]
      rfl

/-- **The tokens of a layout are its lexemes**, and nothing is left behind them. -/
theorem tokenizeFrom_laid {ls : List Lexeme} {cs : List Char} (laid : Laid ls cs) (o : Nat) :
    (tokenizeFrom o cs).list.map Token.lexeme = ls ∧
      (tokenizeFrom o cs).ending = .finished (o + cs.length) := by
  induction laid generalizing o with
  | @ended gap is =>
    have past := tokenizeFrom_gap is o
    rw [List.append_nil, tokenizeFrom_of_nil (show skipGap [] = (0, []) by rw [skipGap])] at past
    rw [past]
    exact ⟨rfl, rfl⟩
  | @lexeme l ls gap rest is writable ends more ih =>
    rw [tokenizeFrom_gap is, tokenizeFrom_lexeme writable ends]
    obtain ⟨lexemes, ending⟩ := ih (o + gap.length + l.chars.length)
    refine ⟨congrArg (l :: ·) lexemes, ending.trans ?_⟩
    rw [List.length_append, List.length_append, Nat.add_assoc, Nat.add_assoc]

end Token

/-- **The tokens of a text are the lexemes that it is a layout of.** -/
theorem Source.tokenize_laid {ls : List Lexeme} {text : String} (laid : Laid ls text.toList)
    (location : Option String) :
    (tokenize ⟨text, location⟩).list.map Token.lexeme = ls ∧
      (tokenize ⟨text, location⟩).ending = .finished text.toList.length := by
  have found := Token.tokenizeFrom_laid laid 0
  rw [Nat.zero_add] at found
  exact found

/-! ## A layout of all lexemes that can be written -/

/-- Each lexeme with a space behind it. -/
def spaced (ls : List Lexeme) : List Char :=
  ls.flatMap fun l => l.chars ++ [' ']

/-- Every lexeme ends in front of a space. -/
theorem Lexeme.ends_space (l : Lexeme) (rest : List Char) : l.Ends (' ' :: rest) := by
  cases l with
  | plain text => exact Or.inl rfl
  | string content => nofun
  | _ => trivial

/-- **Lexemes that can be written have a layout.** -/
theorem laid_spaced {ls : List Lexeme} (writable : ∀ l ∈ ls, l.Writable) :
    Laid ls (spaced ls) := by
  -- the space behind a lexeme is the gap in front of the next one
  have behind (ls : List Lexeme) (writable : ∀ l ∈ ls, l.Writable) :
      Laid ls (' ' :: spaced ls) := by
    induction ls with
    | nil => exact .ended (.layout rfl .none)
    | cons l ls ih =>
      have more := ih fun m is => writable m (List.mem_cons_of_mem _ is)
      have laid := Laid.lexeme (.layout (c := ' ') rfl .none) (writable l List.mem_cons_self)
        (l.ends_space _) more
      simpa [spaced] using laid
  cases ls with
  | nil => exact .ended .none
  | cons l ls =>
    have more := behind ls fun m is => writable m (List.mem_cons_of_mem _ is)
    have laid := Laid.lexeme .none (writable l List.mem_cons_self) (l.ends_space _) more
    simpa [spaced] using laid

end SmtSession
