import SmtSession.Proofs.Reader.Extent
import SmtSession.Token.Stream

/-!
# The stream stays in step with its scanner

**Over a scanner that does what is documented, the stream delivers the tokens of the text**, with
their ranges. The scanner and the cursor of the stream are two readers of one text; the stream
is *aligned* when the scanner has left what stands behind the cursor, with the line feed that was
put behind the text. One step from an aligned stream gives what `Token.front` gives and leaves the
stream aligned (`step_front`), so by induction on what is left they go on together
(`delivers_of_aligned`). Where the tokens stand is known of the one reader already.
-/

namespace SmtSession

open Token (skipGap skipComment)

/-! ## The scanner -/

namespace Scanner

/-- **Counting quotes finds the end of a literal**: it is where the content, read with quotes
written twice, is closed. -/
theorem literal_eq (cs : List Char) : literal false (cs ++ ['\n']) =
    (Text.Quoted.scan cs).map fun (content, rest) =>
      (Text.Quoted.escape content ++ ['"'], rest ++ ['\n']) := by
  fun_induction Text.Quoted.scan cs with
  | case1 => rfl
  | case2 cs ih =>
    have doubled : literal false ('"' :: '"' :: cs ++ ['\n']) =
        ((literal false (cs ++ ['\n'])).map fun (body, rest) => ('"' :: body, rest)).map
          fun (body, rest) => ('"' :: body, rest) := rfl
    rw [doubled, ih]
    cases Text.Quoted.scan cs <;> rfl
  | case3 cs other =>
    have closed : literal true (cs ++ ['\n']) = some ([], cs ++ ['\n']) := by
      cases cs with
      | nil => rfl
      | cons c cs =>
        have plain : c ≠ '"' := fun quote => other cs (by rw [quote])
        rw [List.cons_append, literal, if_neg plain]
        rfl
    show (literal true (cs ++ ['\n'])).map _ = _
    rw [closed]
    rfl
  | case4 c cs _ plain ih =>
    have kept (content : List Char) :
        Text.Quoted.escape (c :: content) = c :: Text.Quoted.escape content := by
      rw [Text.Quoted.escape]
      exact plain
    have goes : literal false (c :: cs ++ ['\n']) =
        (literal false (cs ++ ['\n'])).map fun (body, rest) => (c :: body, rest) := by
      rw [List.cons_append, literal, if_neg plain]
      rfl
    rw [goes, ih]
    cases Text.Quoted.scan cs with
    | none => rfl
    | some found => simp [kept]

variable {scan : Scanner}

mutual

/-- The scanner skips what the cursor skips. -/
theorem Documented.skip (documented : scan.Documented) :
    (cs : List Char) → scan (cs ++ ['\n']) = scan ((skipGap cs).2 ++ ['\n'])
  | [] => by simp [skipGap]
  | c :: cs => by
    rw [skipGap]
    split
    · next layout =>
      rw [List.cons_append, documented.layout c _ layout]
      exact documented.skip cs
    · split
      · next comment =>
        subst comment
        exact documented.skipLine cs [] nofun
      · rfl

theorem Documented.skipLine (documented : scan.Documented) :
    (cs body : List Char) → '\n' ∉ body →
      scan (';' :: (body ++ (cs ++ ['\n']))) = scan ((skipComment cs).2 ++ ['\n'])
  | [], body, line => by
    have last := documented.comment body [] line
    rw [skipComment, List.nil_append, last, documented.layout '\n' [] rfl]
  | c :: cs, body, line => by
    by_cases feed : c = '\n'
    · subst feed
      rw [List.cons_append, documented.comment body _ line]
      exact documented.skip cs
    · have longer : '\n' ∉ body ++ [c] := by simp [line, Ne.symm feed]
      have step := documented.skipLine cs (body ++ [c]) longer
      rw [List.append_assoc] at step
      simp only [skipComment, if_neg feed]
      exact step

end

end Scanner

/-! ## One step -/

namespace Token

mutual

/-- What is skipped is dropped. -/
theorem skipGap_drop : (cs : List Char) → cs.drop (skipGap cs).1 = (skipGap cs).2
  | [] => by simp [skipGap]
  | c :: cs => by
    rw [skipGap]
    split
    · exact skipGap_drop cs
    · split
      · exact skipComment_drop cs
      · rfl

theorem skipComment_drop : (cs : List Char) → cs.drop (skipComment cs).1 = (skipComment cs).2
  | [] => by simp [skipComment]
  | c :: cs => by
    by_cases feed : c = '\n'
    · simp only [skipComment, if_pos feed]
      exact skipGap_drop cs
    · simp only [skipComment, if_neg feed]
      exact skipComment_drop cs

end

mutual

/-- What stands behind what is skipped is neither layout nor the start of a comment. -/
theorem front_of_skipGap {c : Char} {rest : List Char} : (cs : List Char) →
    (skipGap cs).2 = c :: rest → isLayout c = false ∧ c ≠ ';'
  | [], behind => by
    rw [skipGap] at behind
    cases behind
  | d :: cs, behind => by
    rw [skipGap] at behind
    split at behind
    · exact front_of_skipGap cs behind
    · next layout =>
      split at behind
      · exact front_of_skipComment cs behind
      · next comment =>
        cases behind
        exact ⟨by simpa using layout, comment⟩

theorem front_of_skipComment {c : Char} {rest : List Char} : (cs : List Char) →
    (skipComment cs).2 = c :: rest → isLayout c = false ∧ c ≠ ';'
  | [], behind => by
    rw [skipComment] at behind
    cases behind
  | d :: cs, behind => by
    by_cases feed : d = '\n'
    · simp only [skipComment, if_pos feed] at behind
      exact front_of_skipGap cs behind
    · simp only [skipComment, if_neg feed] at behind
      exact front_of_skipComment cs behind

end

end Token

namespace TokenStream

variable {scan : Scanner} {text : List Char} {s : TokenStream}

/-- **The stream is aligned**: the scanner has left what stands behind the cursor, and the line
feed. -/
structure Aligned (text : List Char) (s : TokenStream) : Prop where
  within : s.cursor ≤ text.length
  left : s.left = text.drop s.cursor ++ ['\n']

theorem aligned_ofText (text : List Char) : Aligned text (ofText text) :=
  ⟨Nat.zero_le _, rfl⟩

/-- A token as it is delivered. -/
def Delivery.ofToken (t : Token) : Delivery where
  text := t.text
  start := t.start
  stop := t.stop
  quoted := match t.lexeme with
    | .quoted _ => true
    | _ => false

/-- The stream goes on at an offset of the text, with what the text has there. -/
def resume (next : Nat) (rest : List Char) : TokenStream :=
  ⟨next, rest ++ ['\n']⟩

/-- **A step gives what is found at the front** of the text: the same token, with the mark that
the scanner knows, and the stream aligned behind it. -/
inductive Matches (text : List Char) : Token.Front → Step → Prop
  | token {t : Token} {next : Nat} {rest : List Char} {item : Scanner.Item}
      (marked : (Delivery.ofToken t).quoted = item.barred) (within : next ≤ text.length)
      (behind : text.drop next = rest) :
      Matches text (.token t next rest) (.token item (.ofToken t) (.resume next rest))
  | returns {next : Nat} {rest : List Char} (within : next ≤ text.length)
      (behind : text.drop next = rest) :
      Matches text (.returns next rest) (.skipped (.resume next rest))
  | ended {ending : Ending} {step : Step} (is : step = .ended ∨ step = .malformed) :
      Matches text (.ended ending) step

/-- What stands behind some characters of a text, and where. -/
theorem drop_behind {text here rest : List Char} {start : Nat}
    (behind : text.drop start = here ++ rest) (some : here ≠ []) :
    start + here.length ≤ text.length ∧ text.drop (start + here.length) = rest ∧
      text.length - rest.length = start + here.length := by
  have positive := List.length_pos_iff.mpr some
  have total := congrArg List.length behind
  rw [List.length_drop, List.length_append] at total
  refine ⟨by omega, ?_, by omega⟩
  rw [← List.drop_drop, behind, List.drop_left]

section

variable {start : Nat} {c : Char} {cs : List Char}

/-- A symbol between bars. -/
theorem step_barred (documented : scan.Documented) (starts : skipLayout text s.cursor = start)
    (here : text.drop start = '|' :: cs) (left : scan s.left = scan ('|' :: cs ++ ['\n'])) :
    Matches text (Token.front start '|' cs) (step scan text s) := by
  have bar : text[start]? = some '|' := by
    rw [← Nat.add_zero start, ← List.getElem?_drop, here]
    rfl
  have content : text.drop (start + 1) = cs := by
    rw [← List.drop_drop, here]
    rfl
  rw [step, starts, if_pos bar, behindBars?, content, Token.front, if_neg (by decide),
    if_neg (by decide), if_pos rfl]
  cases scanned : Text.Barred.scan cs with
  | badEscape behind => exact .ended (.inr rfl)
  | unclosed => exact .ended (.inr rfl)
  | closed name rest =>
    have split := Text.Barred.eq_of_scan scanned
    have whole : text.drop start = ('|' :: (Text.Barred.escape name ++ ['|'])) ++ rest := by
      rw [here, split]
      simp
    obtain ⟨within, behind, stop⟩ := drop_behind whole (List.cons_ne_nil _ _)
    have yields : scan s.left = some (⟨name, true⟩, rest ++ ['\n']) := by
      rw [left, split, ← documented.barred name (rest ++ ['\n'])]
      simp
    have ends : start + 1 + (cs.length - rest.length) = text.length - rest.length := by
      rw [stop, split]
      simp only [List.length_append, List.length_cons, List.length_nil]
      omega
    have least : min (text.length - rest.length) text.length = text.length - rest.length :=
      Nat.min_eq_left (Nat.sub_le ..)
    simp only [yields, ends, least]
    exact .token rfl (Nat.sub_le ..) (by rw [stop, behind])

/-- Anything else that the scanner yields as it is written. -/
theorem step_written {run rest : List Char} (starts : skipLayout text s.cursor = start)
    (here : text.drop start = run ++ rest) (first : run.head? ≠ some '|') (some : run ≠ [])
    (yields : scan s.left = .some (⟨run, false⟩, rest ++ ['\n'])) :
    step scan text s =
      (if (Token.trim run).isEmpty then .skipped (.resume (start + run.length) rest)
      else .token ⟨run, false⟩
        ⟨String.ofList (Token.trim run), start, start + (Token.trim run).length, false⟩
        (.resume (start + run.length) rest)) ∧
    start + run.length ≤ text.length ∧ text.drop (start + run.length) = rest := by
  obtain ⟨within, dropped, -⟩ := drop_behind here some
  have no_bar : ¬ text[start]? = Option.some '|' := by
    obtain ⟨c, run, rfl⟩ := List.exists_cons_of_ne_nil some
    rw [← Nat.add_zero start, ← List.getElem?_drop, here]
    exact first
  have width : behind start ⟨run, false⟩ = start + run.length := by
    unfold behind
    split
    · next parenthesis =>
      have one : run.length = 1 := by
        rcases parenthesis with is | is <;> · have is : run = _ := is; rw [is]; rfl
      rw [one]
    · rfl
  refine ⟨?_, within, dropped⟩
  rw [step, starts, if_neg no_bar, yields]
  simp only [width, Nat.min_eq_left within]
  rfl

/-- A string literal. -/
theorem step_literal (documented : scan.Documented) (starts : skipLayout text s.cursor = start)
    (here : text.drop start = '"' :: cs) (left : scan s.left = scan ('"' :: cs ++ ['\n'])) :
    Matches text (Token.front start '"' cs) (step scan text s) := by
  rw [List.cons_append, documented.literal, Scanner.literal_eq] at left
  rw [Token.front, if_neg (by decide), if_neg (by decide), if_neg (by decide), if_pos rfl]
  cases scanned : Text.Quoted.scan cs with
  | none =>
    rw [scanned] at left
    have no_bar : ¬ text[start]? = some '|' := by
      rw [← Nat.add_zero start, ← List.getElem?_drop, here]
      simp
    rw [step, starts, if_neg no_bar, left]
    exact .ended (.inl rfl)
  | some found =>
    obtain ⟨content, rest⟩ := found
    obtain ⟨split, -⟩ := Text.Quoted.eq_of_scan scanned
    rw [scanned] at left
    have whole : text.drop start = ('"' :: (Text.Quoted.escape content ++ ['"'])) ++ rest := by
      rw [here, split]
      simp
    obtain ⟨stepped, within, behind⟩ :=
      step_written starts whole (by simp) (List.cons_ne_nil _ _) left
    have kept : Token.trim ('"' :: (Text.Quoted.escape content ++ ['"'])) =
        '"' :: (Text.Quoted.escape content ++ ['"']) := by
      have last (c : Char) (is : ('"' :: (Text.Quoted.escape content ++ ['"'])).getLast? = some c) :
          decide (c = '\r') = false := by
        rw [← List.cons_append, List.getLast?_concat] at is
        cases is
        rfl
      have none : ∀ c ∈ ([] : List Char), decide (c = '\r') = true := List.forall_mem_nil _
      simpa using Token.dropTrailing_of_last none last (List.cons_ne_nil _ _)
    have ends : start + 1 + (cs.length - rest.length) =
        start + ('"' :: (Text.Quoted.escape content ++ ['"'])).length := by
      rw [split]
      simp only [List.length_append, List.length_cons, List.length_nil]
      omega
    have delivered : (⟨String.ofList ('"' :: (Text.Quoted.escape content ++ ['"'])), start,
        start + ('"' :: (Text.Quoted.escape content ++ ['"'])).length, false⟩ : Delivery) =
        .ofToken ⟨.string (String.ofList content), start,
          start + ('"' :: (Text.Quoted.escape content ++ ['"'])).length⟩ := by
      simp only [Delivery.ofToken, Token.text, Lexeme.text, Text.Quoted.encode,
        String.toList_ofList]
    rw [stepped, kept, if_neg (by simp), delivered]
    simp only [ends]
    exact .token rfl within behind

/-- Behind an atom stands a delimiter, if only the line feed. -/
theorem delimiter_behind (cs : List Char) : ∃ d more, Token.afterRun cs ++ ['\n'] = d :: more ∧
    Token.isDelimiter d = true := by
  induction cs with
  | nil => exact ⟨'\n', [], rfl, rfl⟩
  | cons c cs ih =>
    by_cases delimiter : Token.isDelimiter c = true
    · exact ⟨c, cs ++ ['\n'], by simp [Token.afterRun, delimiter], delimiter⟩
    · rw [Token.afterRun, List.dropWhile_cons_of_pos (by simpa using delimiter)]
      exact ih

/-- An atom, or carriage returns alone. -/
theorem step_atom (documented : scan.Documented) (starts : skipLayout text s.cursor = start)
    (inner : Token.isDelimiter c = false) (here : text.drop start = c :: cs)
    (left : scan s.left = scan (c :: cs ++ ['\n'])) :
    Matches text (Token.front start c cs) (step scan text s) := by
  have split : c :: cs = (c :: Token.run cs) ++ Token.afterRun cs :=
    congrArg (c :: ·) (List.takeWhile_append_dropWhile ..).symm
  have plain : ∀ d ∈ c :: Token.run cs, Token.isDelimiter d = false := by
    refine List.forall_mem_cons.mpr ⟨inner, fun d is => ?_⟩
    simpa using List.all_eq_true.mp List.all_takeWhile d is
  obtain ⟨d, more, behind, delimiter⟩ := delimiter_behind cs
  have yields : scan s.left =
      some (⟨c :: Token.run cs, false⟩, Token.afterRun cs ++ ['\n']) := by
    rw [left, split, List.append_assoc, behind]
    exact documented.atom _ more d nofun plain delimiter
  have first : (c :: Token.run cs).head? ≠ some '|' := by
    intro bar
    cases bar
    cases inner
  obtain ⟨stepped, within, dropped⟩ := step_written starts (here.trans split) first nofun yields
  rw [stepped, Token.front_atom inner]
  split
  · exact .returns within dropped
  · have delivered (value : List Char) :
        (⟨String.ofList value, start, start + value.length, false⟩ : Delivery) =
          .ofToken ⟨.plain (String.ofList value), start, start + value.length⟩ := rfl
    rw [delivered]
    exact .token rfl within dropped

/-- **One step from an aligned stream** gives what stands at the front of the text. -/
theorem step_front (documented : scan.Documented) (aligned : Aligned text s) {n : Nat}
    (gap : skipGap (text.drop s.cursor) = (n, c :: cs)) :
    Matches text (Token.front (s.cursor + n) c cs) (step scan text s) := by
  have starts : skipLayout text s.cursor = s.cursor + n := by rw [skipLayout, gap]
  have here : text.drop (s.cursor + n) = c :: cs := by
    have dropped := Token.skipGap_drop (text.drop s.cursor)
    rwa [gap, List.drop_drop] at dropped
  have left : scan s.left = scan (c :: cs ++ ['\n']) := by
    rw [aligned.left, documented.skip, gap]
  by_cases opening : c = '('
  · subst opening
    have here : text.drop (s.cursor + n) = ['('] ++ cs := here
    obtain ⟨stepped, within, behind⟩ := step_written starts here (by decide) nofun
      (left.trans (documented.opening _))
    rw [stepped]
    exact .token rfl within behind
  by_cases closing : c = ')'
  · subst closing
    have here : text.drop (s.cursor + n) = [')'] ++ cs := here
    obtain ⟨stepped, within, behind⟩ := step_written starts here (by decide) nofun
      (left.trans (documented.closing _))
    rw [stepped]
    exact .token rfl within behind
  by_cases bar : c = '|'
  · subst bar
    exact step_barred documented starts here left
  by_cases quote : c = '"'
  · subst quote
    exact step_literal documented starts here left
  · obtain ⟨layout, comment⟩ := Token.front_of_skipGap _ (congrArg Prod.snd gap)
    have inner : Token.isDelimiter c = false := by
      simp [Token.isDelimiter, layout, opening, closing, bar, quote, comment]
    exact step_atom documented starts inner here left

/-- Where nothing but layout is left, nothing more is delivered. -/
theorem step_end (documented : scan.Documented) (aligned : Aligned text s) {n : Nat}
    (gap : skipGap (text.drop s.cursor) = (n, [])) : step scan text s = .ended := by
  have here : text.drop (s.cursor + n) = [] := by
    have dropped := Token.skipGap_drop (text.drop s.cursor)
    rwa [gap, List.drop_drop] at dropped
  have no_bar : ¬ text[s.cursor + n]? = some '|' := by
    rw [← Nat.add_zero (s.cursor + n), ← List.getElem?_drop, here]
    nofun
  have nothing : scan s.left = none := by
    rw [aligned.left, documented.skip, gap]
    exact (documented.layout '\n' [] rfl).trans documented.ended
  rw [step, skipLayout, gap, if_neg no_bar, nothing]

end

/-! ## All that is delivered -/

/-- What one step gives decides what is delivered. -/
theorem delivers_iff_ended (is : step scan text s = .ended ∨ step scan text s = .malformed)
    {ds : List (Scanner.Item × Delivery)} : Delivers scan text s ds ↔ ds = [] := by
  constructor
  · intro delivers
    cases delivers with
    | ended _ | malformed _ => rfl
    | skipped other _ | token other _ => rcases is with is | is <;> rw [is] at other <;> cases other
  · rintro rfl
    exact is.elim .ended .malformed

theorem delivers_iff_skipped {next : TokenStream} (is : step scan text s = .skipped next)
    {ds : List (Scanner.Item × Delivery)} :
    Delivers scan text s ds ↔ Delivers scan text next ds := by
  constructor
  · intro delivers
    cases delivers with
    | ended other | malformed other | token other _ =>
      rw [is] at other
      cases other
    | skipped same more =>
      rw [is] at same
      cases same
      exact more
  · exact .skipped is

theorem delivers_iff_token {next : TokenStream} {item : Scanner.Item} {delivery : Delivery}
    (is : step scan text s = .token item delivery next) {ds : List (Scanner.Item × Delivery)} :
    Delivers scan text s ds ↔ ∃ more, ds = (item, delivery) :: more ∧
      Delivers scan text next more := by
  constructor
  · intro delivers
    cases delivers with
    | ended other | malformed other | skipped other _ =>
      rw [is] at other
      cases other
    | token same more =>
      rw [is] at same
      cases same
      exact ⟨_, rfl, more⟩
  · rintro ⟨more, rfl, delivers⟩
    exact .token is delivers

/-- **From an aligned stream the tokens of the rest are delivered**, and nothing else. The
induction is on what is left of the text. -/
theorem delivers_of_aligned (documented : scan.Documented) (s : TokenStream)
    (aligned : Aligned text s) : ∃ ds, (∀ ds', Delivers scan text s ds' ↔ ds' = ds) ∧
      ds.map Prod.snd =
        (Token.tokenizeFrom s.cursor (text.drop s.cursor)).list.map Delivery.ofToken ∧
      ∀ d ∈ ds, d.2.quoted = d.1.barred := by
  have goes_on {next : Nat} {rest : List Char} (within : next ≤ text.length)
      (behind : text.drop next = rest) : Aligned text (.resume next rest) :=
    ⟨within, behind ▸ rfl⟩
  have total := Token.skipGap_length (text.drop s.cursor)
  cases gap : skipGap (text.drop s.cursor) with
  | mk n behind =>
    cases behind with
    | nil =>
      refine ⟨[], fun ds' => delivers_iff_ended (.inl (step_end documented aligned gap)), ?_, nofun⟩
      rw [Token.tokenizeFrom_of_nil gap]
      rfl
    | cons c cs =>
      have short := Token.front_rest_length (s.cursor + n) c cs
      have stepped := step_front documented aligned gap
      rw [Token.tokenizeFrom_of_cons gap]
      rw [gap] at total
      generalize found : Token.front (s.cursor + n) c cs = front at short stepped
      generalize is : step scan text s = outcome at stepped
      cases stepped with
      | ended none =>
        exact ⟨[], fun ds' => delivers_iff_ended (is ▸ none), rfl, nofun⟩
      | @returns next rest within behind =>
        have shorter : (text.drop next).length < (text.drop s.cursor).length := by
          simp only [Token.Front.rest, List.length_cons] at short total
          rw [behind]
          omega
        obtain ⟨ds, only, tokens, marked⟩ :=
          delivers_of_aligned documented _ (goes_on within behind)
        refine ⟨ds, fun ds' => (delivers_iff_skipped is).trans (only ds'), ?_, marked⟩
        rw [tokens, ← behind]
        rfl
      | @token t next rest item mark within behind =>
        have shorter : (text.drop next).length < (text.drop s.cursor).length := by
          simp only [Token.Front.rest, List.length_cons] at short total
          rw [behind]
          omega
        obtain ⟨ds, only, tokens, marked⟩ :=
          delivers_of_aligned documented _ (goes_on within behind)
        refine ⟨(item, .ofToken t) :: ds, fun ds' => ?_, ?_,
          List.forall_mem_cons.mpr ⟨mark, marked⟩⟩
        · rw [delivers_iff_token is]
          constructor
          · rintro ⟨more, rfl, delivers⟩
            rw [(only more).mp delivers]
          · rintro rfl
            exact ⟨ds, rfl, (only ds).mpr rfl⟩
        · rw [List.map_cons, tokens, ← behind]
          rfl
termination_by (text.drop s.cursor).length
decreasing_by all_goals exact shorter

/-! ## In step -/

/-- **Deliveries are in step with the text**: they are its tokens, each at its range. -/
structure InStep (source : Source) (ds : List (Scanner.Item × Delivery)) : Prop where
  tokens : ds.map Prod.snd = source.tokenize.list.map Delivery.ofToken
  /-- Those are marked that were read between bars. -/
  marked : ∀ d ∈ ds, d.2.quoted = d.1.barred
  inside : ∀ d ∈ ds, d.2.start < d.2.stop ∧ d.2.stop ≤ source.text.toList.length
  /-- What is not marked is the text at its range. -/
  plain : ∀ d ∈ ds, d.2.quoted = false → source.slice d.2.start d.2.stop = d.2.text
  /-- What is marked has bars at the ends of its range, and is written with escapes there. -/
  barred : ∀ d ∈ ds, d.2.quoted = true →
    source.slice d.2.start d.2.stop = Text.Barred.encode d.2.text
  ordered : ds.Pairwise fun d e => d.2.stop ≤ e.2.start
  /-- Before, between and behind the tokens stand gaps, up to what is not read: a literal that
  is never closed, or a malformed quoted symbol. -/
  between : ∃ text tail, source.text.toList = text ++ tail ∧
    Token.Placed tail 0 source.tokenize.list text ∧ (Unread tail ∨ Broken tail)

/-- A token is written as its text, or between bars. -/
theorem written_ofToken (t : Token) : String.ofList t.lexeme.chars =
    if (Delivery.ofToken t).quoted then Text.Barred.encode (Delivery.ofToken t).text
    else (Delivery.ofToken t).text := by
  obtain ⟨lexeme, start, stop⟩ := t
  cases lexeme with
  | plain text => exact String.ofList_toList
  | _ => rfl

end TokenStream

open TokenStream (Delivers InStep Delivery ofText)

/-- **Over a documented scanner the stream stays in step with it**: it delivers one list of
tokens, up to the end or the first malformed quoted symbol, and this is in step with the text. -/
theorem TokenStream.delivers_inStep {scan : Scanner} (documented : scan.Documented)
    (source : Source) : ∃ ds,
      (∀ ds', Delivers scan source.text.toList (ofText source.text.toList) ds' ↔ ds' = ds) ∧
      InStep source ds := by
  obtain ⟨ds, only, tokens, marked⟩ :=
    delivers_of_aligned documented _ (aligned_ofText source.text.toList)
  obtain ⟨text, tail, whole, placed, unread⟩ := Token.exists_placed 0 source.text.toList
  have tokens : ds.map Prod.snd = source.tokenize.list.map Delivery.ofToken := tokens
  have each (d : Scanner.Item × Delivery) (is : d ∈ ds) :
      ∃ t ∈ source.tokenize.list, d.2 = .ofToken t := by
    have is := List.mem_map_of_mem (f := Prod.snd) is
    rw [tokens] at is
    obtain ⟨t, is, same⟩ := List.mem_map.mp is
    exact ⟨t, is, same.symm⟩
  obtain ⟨proper, ordered⟩ := placed.ordered
  refine ⟨ds, only, tokens, marked, fun d is => ?_, fun d is => ?_, fun d is => ?_, ?_,
    text, tail, whole, placed, unread.imp_right And.left⟩
  · obtain ⟨t, is, same⟩ := each d is
    rw [same]
    exact ⟨proper t is, (placed.slice whole is).1⟩
  · obtain ⟨t, is, same⟩ := each d is
    rw [same]
    intro plain
    have written := (placed.slice whole is).2
    rw [written_ofToken, if_neg (by simp [plain])] at written
    exact written
  · obtain ⟨t, is, same⟩ := each d is
    rw [same]
    intro quoted
    have written := (placed.slice whole is).2
    rw [written_ofToken, if_pos quoted] at written
    exact written
  · have apart : (ds.map Prod.snd).Pairwise fun d e => d.stop ≤ e.start := by
      rw [tokens]
      exact List.pairwise_map.mpr ordered
    exact List.pairwise_map.mp apart

/-- The direct scanner does what is documented. -/
theorem Scanner.direct_documented : direct.Documented where
  ended := by simp [direct, skipGap]
  layout c cs is := by
    have skipped : (skipGap (c :: cs)).2 = (skipGap cs).2 := by
      rw [skipGap, is]
      rfl
    rw [direct, direct, skipped]
  comment body cs line := by
    have skipped : (skipGap (';' :: (body ++ '\n' :: cs))).2 = (skipGap cs).2 := by
      rw [skipGap, if_neg (by decide), if_pos rfl, Token.skipComment_line line]
    rw [direct, direct, skipped]
  opening cs := by
    rw [direct, Token.skipGap_of_token (by decide) (by decide)]
    rfl
  closing cs := by
    rw [direct, Token.skipGap_of_token (by decide) (by decide)]
    rfl
  barred name cs := by
    rw [direct, Token.skipGap_of_token (by decide) (by decide)]
    simp [Text.Barred.scan_escape]
  literal cs := by
    rw [direct, Token.skipGap_of_token (by decide) (by decide)]
    rfl
  atom run cs d some inner delimiter := by
    obtain ⟨c, run, rfl⟩ := List.exists_cons_of_ne_nil some
    obtain ⟨first, inner⟩ := List.forall_mem_cons.mp inner
    have plain : Token.isLayout c = false ∧ c ≠ '(' ∧ c ≠ ')' ∧ c ≠ '|' ∧ c ≠ '"' ∧ c ≠ ';' := by
      simpa [Token.isDelimiter, and_assoc] using first
    obtain ⟨layout, opening, closing, bar, quote, comment⟩ := plain
    have kept : ∀ e ∈ run, (!Token.isDelimiter e) = true := fun e is => by rw [inner e is]; rfl
    have stops : (!Token.isDelimiter d) = false := by rw [delimiter]; rfl
    rw [List.cons_append, direct, Token.skipGap_of_token layout comment]
    simp only [opening, closing, bar, quote, or_self, if_false]
    rw [List.takeWhile_append_of_pos kept, List.dropWhile_append_of_pos kept,
      List.takeWhile_cons_of_neg (by simp [stops]), List.dropWhile_cons_of_neg (by simp [stops]),
      List.append_nil]

/-- Tokens that touch, an escaped bar, a carriage return behind an atom, a quote in a string,
and a literal that is never closed. -/
theorem TokenStream.delivers_inStep_direct :
    let source : Source := ⟨"(|a\\|b|x\r\n\"s\"\"t\") \"open", none⟩
    Scanner.direct.Documented ∧ ∃ ds,
      (∀ ds', Delivers Scanner.direct source.text.toList (ofText source.text.toList) ds' ↔
        ds' = ds) ∧ InStep source ds ∧
      ds.map Prod.snd = [⟨"(", 0, 1, false⟩, ⟨"a|b", 1, 7, true⟩, ⟨"x", 7, 8, false⟩,
        ⟨"\"s\"\"t\"", 10, 16, false⟩, ⟨")", 16, 17, false⟩] := by
  intro source
  obtain ⟨ds, only, inStep⟩ := delivers_inStep Scanner.direct_documented source
  refine ⟨Scanner.direct_documented, ds, only, inStep, ?_⟩
  rw [inStep.tokens]
  decide +kernel

end SmtSession
