import SmtSession.Proofs.Reader.Commands
import SmtSession.Proofs.Reader.TakenTerms

/-!
# The readers and the grammar

**The readers go by the grammar, and by nothing else.** Where tokens in front spell a term, a
sort or a command, it is read and just these tokens are taken; where none do, nothing is read.
So no token is passed over and none is made up, and what follows the tokens taken is not looked
at: of all that stands in front, nothing longer and nothing shorter is a spelling.

The one half is that a reader that gives a value took its spelling (`Takes`), the other that a
spelling is read whatever follows (`Reads`). `Follows.of` puts the two together.
-/

namespace SmtSession

namespace Reader

/-- **A reader follows a grammar**, where `value` makes what it gives of what is spelled, and
`bare` leaves out the positions. -/
structure Follows (r : Reader β) (value : α → β) (spells : α → List Lexeme → Prop)
    (bare : α → α) : Prop where
  /-- The tokens that are gone are a spelling of what was read … -/
  spelled : ∀ input ts rest a, r input ts = .done (value a) rest →
    ∃ taken, ts = taken ++ rest ∧ spells a (taken.map Token.lexeme)
  /-- … and no more of the tokens and no fewer spell anything, nor do these spell anything
  else. -/
  only : ∀ input ts rest a, r input ts = .done (value a) rest →
    ∀ front behind b, ts = front ++ behind → spells b (front.map Token.lexeme) →
      behind = rest ∧ bare b = bare a
  /-- Whatever is spelled in front is read. -/
  takes : ∀ input front behind b, spells b (front.map Token.lexeme) →
    ∃ a, r input (front ++ behind) = .done (value a) behind ∧ bare a = bare b

theorem Follows.of {r : Reader β} {value : α → β} {spells : α → List Lexeme → Prop}
    {bare : α → α} (one : ∀ a b, value a = value b → a = b)
    (spelled : ∀ input ts rest a, r input ts = .done (value a) rest →
      ∃ taken, ts = taken ++ rest ∧ spells a (taken.map Token.lexeme))
    (reads : ∀ b ls after, spells b ls →
      Reads r ls after fun v => ∃ a, v = value a ∧ bare a = bare b) :
    Follows r value spells bare := by
  have takes (input : Input) (front behind : List Token) (b : α)
      (is : spells b (front.map Token.lexeme)) :
      ∃ a, r input (front ++ behind) = .done (value a) behind ∧ bare a = bare b := by
    obtain ⟨_, done, a, rfl, same⟩ := reads b _ (behind.map Token.lexeme) is input front behind
      rfl rfl
    exact ⟨a, done, same⟩
  refine ⟨spelled, ?_, takes⟩
  rintro input _ rest a done front behind b rfl is
  obtain ⟨a', done', same⟩ := takes input front behind b is
  rw [done] at done'
  obtain ⟨value, left⟩ := Outcome.done.inj done'
  exact ⟨left.symm, by rw [one a a' value, same]⟩

/-- The next term. -/
theorem term_follows : Follows Reader.term id Term.Spelled Term.bare :=
  .of (fun _ _ => id) (fun _ ts rest a done => Takes.whole_term ts rest a done)
    fun _ _ _ spelled => (nextTerm_reads spelled).mono fun v same => ⟨v, rfl, same⟩

/-- The next sort. -/
theorem sort_follows (parameters : List String) :
    Follows (Reader.sort parameters) id (SmtSort.Spelled parameters) SmtSort.bare :=
  .of (fun _ _ => id) (fun _ ts rest a done => Takes.sort_spelled parameters ts rest a done)
    fun _ _ _ spelled => (nextSort_reads spelled).mono fun v same => ⟨v, rfl, same⟩

/-- The next command, with the parentheses around it. -/
theorem command_follows : Follows Reader.command? some Command.Spelled Command.bare :=
  .of (fun _ _ => Option.some.inj) (fun _ ts rest c done => Takes.command? ts rest (some c) done)
    fun c _ _ spelled => command_reads c spelled

end Reader

/-! ## Reserved words -/

namespace Term

/-- **No term is spelled as a plain reserved word.** -/
theorem not_spelled_reserved {word : String} (reserved : word ∈ Reader.reservedWords) (t : Term) :
    ¬ t.Spelled [.plain word] := by
  have class_ : AtomClass.ofChars word.toList = .symbol :=
    (by decide : ∀ word ∈ Reader.reservedWords, AtomClass.ofChars word.toList = .symbol)
      word reserved
  have other {class' : AtomClass} (is : Lexeme.HasClass class' (.plain word))
      (differs : class' ≠ .symbol) : False :=
    differs ((show AtomClass.ofChars word.toList = class' from is).symm.trans class_)
  -- between parentheses stand two lexemes at least
  have several {ls : List Lexeme} (same : [.plain word] = parenthesised ls) : False := by
    simp [parenthesised] at same
  intro spelled
  cases t with
  | numeral value =>
    obtain ⟨_, same, counts⟩ := spelled
    cases same
    obtain ⟨_, is, -⟩ := counts
    exact other is (by simp)
  | decimal | keyword =>
    obtain ⟨same, is⟩ := spelled
    cases same
    exact other is (by simp)
  | hex | binary =>
    obtain ⟨_, same, is⟩ := spelled
    cases same
    exact other is (by simp)
  | string => cases spelled
  | symbol s =>
    obtain ⟨_, same, names, free⟩ := spelled
    cases same
    have name : word = s.name := names.1
    exact free (by rw [name]) (name ▸ reserved)
  | qualified =>
    obtain ⟨_, _, same, -⟩ := spelled
    exact several same
  | indexed | apply | quantified | letIn | attributed =>
    obtain ⟨-, _, _, same, -⟩ := spelled
    exact several same
  | error | sort | declaration | binding | attr => exact spelled

end Term

/-! ## All readers -/

namespace Reader

/-- What it is for the readers to ignore nothing and to invent nothing. -/
structure Faithful : Prop where
  /-- The next term, the next sort and the next command are read by the grammar … -/
  term : Follows Reader.term id Term.Spelled Term.bare
  sort : ∀ parameters, Follows (Reader.sort parameters) id (SmtSort.Spelled parameters) SmtSort.bare
  command : Follows Reader.command? some Command.Spelled Command.bare
  /-- … and there is no command only where there are no tokens. -/
  ended : ∀ input ts rest, Reader.command? input ts = .done none rest → ts = [] ∧ rest = []
  /-- Everything in a term that stands where a term may stand is spelled by some of the tokens
  taken, the heads of applications too, and these are not one plain reserved word. -/
  parts : ∀ input ts rest t, Reader.term input ts = .done t rest →
    ∃ taken, ts = taken ++ rest ∧ ∀ u, (Node.term u).Within (.term t) →
      ∃ before here after, taken = before ++ (here ++ after) ∧
        u.Spelled (here.map Token.lexeme) ∧
        ∀ word ∈ reservedWords, here.map Token.lexeme ≠ [.plain word]

/-- **Nothing among the tokens is ignored and nothing is invented.** -/
theorem faithful : Faithful where
  term := term_follows
  sort := sort_follows
  command := command_follows
  ended _ _ _ done := by
    obtain ⟨none, left, -⟩ := ended_of_command done
    exact ⟨none, left⟩
  parts input ts rest t done := by
    obtain ⟨taken, split, located⟩ := Takes.term_located ts rest t done
    refine ⟨taken, split, fun u inside => ?_⟩
    obtain ⟨before, here, after, whole, stands⟩ := located.inside _ inside
    obtain ⟨first, more, rfl, read⟩ := stands.read
    have spelled : u.Spelled ((first :: more).map Token.lexeme) := read.spelled
    refine ⟨before, first :: more, after, whole, spelled, fun word reserved same => ?_⟩
    rw [same] at spelled
    exact u.not_spelled_reserved reserved spelled

end Reader

end SmtSession
