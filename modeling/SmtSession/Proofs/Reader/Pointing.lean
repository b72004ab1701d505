import SmtSession.Proofs.Reader.Blame
import SmtSession.Proofs.Reader.Extent

/-!
# Where reading errors point

**A reading error points into its text**: the range that is blamed begins where it ends or in
front of that, and ends no further than the text. There is one exception. An escape in a
quoted symbol is blamed with the character behind the backslash, and if the backslash is the
last character of the text there is none: that range ends one character behind the text.

What is blamed is a run of tokens or the end of the tokens (`Blamed`). The tokens stand in the
text, and where they end is found as they are: `tokenizeFrom_endsIn` follows the tokenizer to
the end.
-/

namespace SmtSession

/-! ## Where tokens end -/

namespace Text.Barred

/-- What is wrong behind one more character is wrong behind the others. -/
theorem Scan.badEscape_of_push {c : Char} {width behind : Nat} {s : Scan}
    (found : s.push c width = .badEscape behind) :
    ∃ inner, behind = inner + width ∧ s = .badEscape inner := by
  cases s with
  | badEscape inner =>
    cases found
    exact ⟨inner, rfl, rfl⟩
  | closed | unclosed => cases found

/-- What escapes nothing is a backslash. -/
theorem eq_of_badEscape {cs : List Char} {behind : Nat} (found : scan cs = .badEscape behind) :
    ∃ front rest, cs = front ++ '\\' :: rest ∧ behind = front.length := by
  fun_induction scan cs generalizing behind with
  | case1 | case2 => cases found
  | case3 cs ih =>
    obtain ⟨inner, rfl, scanned⟩ := Scan.badEscape_of_push found
    obtain ⟨front, rest, rfl, rfl⟩ := ih scanned
    exact ⟨'\\' :: '|' :: front, rest, rfl, rfl⟩
  | case4 cs ih =>
    obtain ⟨inner, rfl, scanned⟩ := Scan.badEscape_of_push found
    obtain ⟨front, rest, rfl, rfl⟩ := ih scanned
    exact ⟨'\\' :: '\\' :: front, rest, rfl, rfl⟩
  | case5 cs =>
    cases found
    exact ⟨[], cs, rfl, rfl⟩
  | case6 c cs _ _ _ _ ih =>
    obtain ⟨inner, rfl, scanned⟩ := Scan.badEscape_of_push found
    obtain ⟨front, rest, rfl, rfl⟩ := ih scanned
    exact ⟨c :: front, rest, rfl, rfl⟩

end Text.Barred

/-- **Tokens end in some characters**, of which the first has the offset: somewhere among them,
at a quoted symbol that runs to their end, or at a backslash in one. -/
inductive Ending.EndsIn (o : Nat) (cs : List Char) : Ending → Prop
  | finished {here : Nat} (inside : here ≤ o + cs.length) : EndsIn o cs (.finished here)
  | unclosedSymbol {start : Nat} (inside : start < o + cs.length) :
    EndsIn o cs (.unclosedSymbol start (o + cs.length))
  | unknownEscape (front rest : List Char) (split : cs = front ++ '\\' :: rest) :
    EndsIn o cs (.unknownEscape (o + front.length) (o + front.length + 2))

theorem Ending.EndsIn.behind {o : Nat} {cs : List Char} {e : Ending} (front : List Char)
    (ends : e.EndsIn (o + front.length) cs) : e.EndsIn o (front ++ cs) := by
  have length : o + front.length + cs.length = o + (front ++ cs).length := by
    rw [List.length_append, Nat.add_assoc]
  cases ends with
  | finished inside => exact .finished (length ▸ inside)
  | unclosedSymbol inside =>
    rw [length]
    exact .unclosedSymbol (length ▸ inside)
  | unknownEscape inner rest split =>
    have same : o + front.length + inner.length = o + (front ++ inner).length := by
      rw [List.length_append, Nat.add_assoc]
    rw [same]
    exact .unknownEscape (front ++ inner) rest (by rw [split, List.append_assoc])

namespace Token

theorem tokenizeFrom_endsIn_brokenSymbol {body : List Char}
    (never : ∀ content rest, Text.Barred.scan body ≠ .closed content rest) (o : Nat) :
    (tokenizeFrom o ('|' :: body)).ending.EndsIn o ('|' :: body) := by
  rw [tokenizeFrom_of_cons (skipGap_of_token (by decide) (by decide)), front, if_neg (by decide),
    if_neg (by decide), if_pos rfl]
  cases scanned : Text.Barred.scan body with
  | closed content rest => exact absurd scanned (never content rest)
  | badEscape behind =>
    obtain ⟨front, rest, rfl, rfl⟩ := Text.Barred.eq_of_badEscape scanned
    have split : '|' :: (front ++ '\\' :: rest) = ('|' :: front) ++ '\\' :: rest := rfl
    have same : o + 0 + 1 + front.length = o + ('|' :: front).length := by
      rw [List.length_cons]
      omega
    dsimp only
    rw [same]
    exact .unknownEscape _ rest split
  | unclosed =>
    have same : o + 0 + (1 + body.length) = o + ('|' :: body).length := by
      rw [List.length_cons]
      omega
    dsimp only
    rw [Nat.add_assoc (o + 0), same]
    exact .unclosedSymbol (by simp)

/-- **The tokens of a text end in it.** -/
theorem tokenizeFrom_endsIn (o : Nat) (cs : List Char) :
    (tokenizeFrom o cs).ending.EndsIn o cs := by
  obtain ⟨gap, rest, whole, is, behind⟩ := exists_gap cs
  rw [whole, tokenizeFrom_gap is]
  refine .behind gap ?_
  cases behind with
  | nothing =>
    rw [tokenizeFrom_of_nil (show skipGap [] = (0, []) by rw [skipGap])]
    exact .finished (Nat.le_refl _)
  | @lexeme l rest writable ends =>
    have shorter : rest.length < cs.length := by
      have some := List.length_pos_iff.mpr (chars_ne_nil writable)
      simp only [whole, List.length_append]
      omega
    rw [tokenizeFrom_lexeme writable ends]
    exact (tokenizeFrom_endsIn _ rest).behind l.chars
  | openLiteral never =>
    rw [tokenizeFrom_openLiteral never]
    exact .finished (Nat.le_add_right ..)
  | brokenSymbol never => exact tokenizeFrom_endsIn_brokenSymbol never _
termination_by cs.length
decreasing_by exact shorter

end Token

/-! ## Errors in a text -/

/-- **A range that an error may have in a text.** It lies inside of it, but for that of an
escape that the end of the text cuts off, which has one character more. -/
inductive Source.PointedAt (source : Source) : Reader.Cause → Pos → Prop
  | inside (cause : Reader.Cause) {start stop : Nat} (ordered : start ≤ stop)
      (inside : stop ≤ source.text.length) : PointedAt source cause ⟨start, stop, some source⟩
  | cutEscape (front : List Char) (split : source.text.toList = front ++ ['\\']) :
    PointedAt source .unknownEscape ⟨front.length, front.length + 2, some source⟩

namespace Source

/-- The whole text as it is read. -/
def input (source : Source) : Reader.Input :=
  ⟨source, source.tokenize.ending⟩

open Reader (Blamed)

variable {source : Source} {cause : Reader.Cause} {pos : Pos} {e : Reader.Error}

theorem tokenize_endsIn (source : Source) :
    source.tokenize.ending.EndsIn 0 source.text.toList :=
  Token.tokenizeFrom_endsIn 0 source.text.toList

theorem offset_le_length (source : Source) :
    source.tokenize.ending.offset ≤ source.text.length := by
  have ends := source.tokenize_endsIn
  rw [← String.length_toList]
  generalize source.tokenize.ending = ending at ends
  cases ends with
  | finished inside => simpa [Ending.offset] using inside
  | unclosedSymbol inside =>
    have within := Nat.le_of_lt inside
    simpa [Ending.offset] using within
  | unknownEscape front rest split =>
    rw [split]
    simp [Ending.offset]

/-- The malformed quoted symbol that the tokens end at. -/
theorem pointedAt_malformed (ends : source.input.malformed? = some (.malformed cause pos)) :
    source.PointedAt cause pos := by
  have text := source.tokenize_endsIn
  have length := source.text.length_toList
  rw [input, Reader.Input.malformed?] at ends
  generalize source.tokenize.ending = ending at ends text
  cases text with
  | finished => cases ends
  | unclosedSymbol inside =>
    cases ends
    exact .inside _ (Nat.le_of_lt inside) (by omega)
  | unknownEscape front rest split =>
    cases ends
    rw [Nat.zero_add]
    cases rest with
    | nil => exact .cutEscape front split
    | cons c rest =>
      refine .inside _ (Nat.le_add_right ..) ?_
      rw [← length, split]
      simp

/-- Tokens that follow each other. -/
theorem pointedAt_tokens {first : Token} {more : List Token} (before after : List Token)
    (run : source.tokenize.list = before ++ (first :: (more ++ after))) :
    source.PointedAt cause (source.input.spanned first more) := by
  obtain ⟨text, tail, whole, placed, -⟩ := Token.exists_placed 0 source.text.toList
  rw [← tokenize, run] at placed
  have last : more.getLastD first ∈ before ++ (first :: (more ++ after)) := by
    have is : more.getLastD first ∈ first :: more := List.getLastD_mem_cons
    refine List.mem_append_right before ?_
    rw [← List.cons_append]
    exact List.mem_append_left _ is
  have inside := (placed.slice whole last).1
  obtain ⟨front, rest, -, behind⟩ := placed.drop
  obtain ⟨gap, written, left, -, -, -, starts, stops, -⟩ := behind.split
  rw [String.length_toList] at inside
  exact .inside _ (by omega) inside

/-- What is blamed on tokens of a text, or on its end, points into it. -/
theorem pointedAt_of_blamed (before : List Token) {taken rest after : List Token}
    (split : source.tokenize.list = before ++ (taken ++ after))
    (blamed : Blamed source.input taken rest (.malformed cause pos)) :
    source.PointedAt cause pos := by
  cases blamed with
  | malformed ends _ => exact pointedAt_malformed ends
  | incomplete place _ _ => exact .inside _ (Nat.le_refl _) source.offset_le_length
  | tokens _ first more _ run =>
    obtain ⟨inner, behind, rfl⟩ := run
    refine pointedAt_tokens (before ++ inner) (behind ++ after) ?_
    rw [split]
    simp

end Source

namespace Reader

/-- What is refused of a whole text is blamed on its tokens or on its end. -/
theorem pointedAt_of_readAll {source : Source} {r : Reader α} {cause : Cause} {pos : Pos}
    (blames : ∀ n, Blames source.input n [] r Any)
    (refused : readAll r source = .error (.malformed cause pos)) : source.PointedAt cause pos := by
  have whole : Blames source.input source.tokenize.list.length []
      (do let a ← r; finished; Pure.pure a) Any :=
    .any_bind (blames _) fun _ _ => .any_bind .finished fun _ _ => .pure trivial
  unfold readAll at refused
  dsimp only at refused
  split at refused
  · cases refused
  · next failed =>
    cases refused
    obtain ⟨taken, split, blamed⟩ := whole.failed _ _ _ (Nat.le_refl _) failed
    exact Source.pointedAt_of_blamed [] split blamed

end Reader

/-! ## A reader that goes on -/

namespace Script

/-- The script when commands have been asked for so many times, whatever came of it. -/
def after (script : Script) : Nat → Script
  | 0 => script
  | n + 1 => (script.after n).next.2

/-- Who asks for a command finds the rest of the tokens left. -/
theorem exists_of_next (script : Script) :
    script.next.2.input = script.input ∧
      ∃ gone, script.pending = gone ++ script.next.2.pending := by
  have blames : Reader.Blames script.input script.pending.length [] Reader.command? Reader.Any :=
    .command?
  unfold next
  cases found : Reader.command? script.input script.pending with
  | done c? rest =>
    obtain ⟨gone, split, -⟩ := blames.done _ _ _ (Nat.le_refl _) found
    exact ⟨rfl, gone, split⟩
  | failed e rest =>
    obtain ⟨gone, split, -⟩ := blames.failed _ _ _ (Nat.le_refl _) found
    exact ⟨rfl, gone, split⟩

theorem exists_of_after (script : Script) (n : Nat) :
    (script.after n).input = script.input ∧
      ∃ gone, script.pending = gone ++ (script.after n).pending := by
  induction n with
  | zero => exact ⟨rfl, [], rfl⟩
  | succ n ih =>
    obtain ⟨same, gone, split⟩ := ih
    obtain ⟨same', gone', split'⟩ := (script.after n).exists_of_next
    exact ⟨same'.trans same, gone ++ gone', by rw [split, split', List.append_assoc]; rfl⟩

/-- An error of a command that is asked for, after whatever came of others. -/
theorem pointedAt_of_next {source : Source} {n : Nat} {cause : Reader.Cause} {pos : Pos}
    (refused : ((ofSource source).after n).next.1 = .error (.malformed cause pos)) :
    source.PointedAt cause pos := by
  obtain ⟨same, gone, split⟩ := (ofSource source).exists_of_after n
  have blames : Reader.Blames source.input ((ofSource source).after n).pending.length []
      Reader.command? Reader.Any := .command?
  have found := (failed_of_next refused).1
  rw [same] at found
  obtain ⟨taken, pending, blamed⟩ := blames.failed _ _ _ (Nat.le_refl _) found
  rw [pending] at split
  exact Source.pointedAt_of_blamed gone split blamed

end Script

/-- What it is for the errors of all readers to point into a text. -/
structure Source.Pointed (source : Source) : Prop where
  term : ∀ cause pos, readTerm source = .error (.malformed cause pos) → source.PointedAt cause pos
  sort : ∀ cause pos, readSort source = .error (.malformed cause pos) → source.PointedAt cause pos
  script : ∀ cause pos, readScript source = .error (.malformed cause pos) →
    source.PointedAt cause pos
  /-- A reader may go on after errors. -/
  next : ∀ n cause pos, ((Script.ofSource source).after n).next.1 = .error (.malformed cause pos) →
    source.PointedAt cause pos

open Reader (Blames pointedAt_of_readAll)

/-- **Every reading error points into its text**, but for an escape that its end cuts off. -/
theorem Source.pointed (source : Source) : source.Pointed where
  term _ _ := pointedAt_of_readAll fun _ => .term
  sort _ _ := pointedAt_of_readAll fun _ => .sort []
  script _ _ := pointedAt_of_readAll fun _ => .remaining_bind fun k _ => .commands (k + 1)
  next _ _ _ := Script.pointedAt_of_next

/-- **An escape that the end cuts off is blamed with a character that is not there.** -/
theorem not_inside_of_cutEscape :
    ¬ ∀ (source : Source) (cause : Reader.Cause) (pos : Pos),
      readTerm source = .error (.malformed cause pos) →
        pos.source = some source ∧ pos.start ≤ pos.stop ∧ pos.stop ≤ source.text.length := by
  intro inside
  let source : Source := ⟨"|\\", none⟩
  have refused : readTerm source = .error (.malformed .unknownEscape ⟨1, 3, some source⟩) :=
    eq_error_of_computed (by decide +kernel)
  obtain ⟨-, -, beyond⟩ := inside source _ _ refused
  have length : source.text.length = 2 := by decide
  rw [length] at beyond
  exact absurd beyond (by decide)

end SmtSession
