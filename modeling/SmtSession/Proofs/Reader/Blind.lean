import SmtSession.Proofs.Reader.Moved

/-!
# Readers do not see where tokens stand

**A reader decides by the lexemes alone.** Where its tokens stand, and what text they are
of, shows in the positions of what is read and in nothing else: what is read is the same
without positions, an error has the same cause, and as many tokens are left. `Blind` says
so of two readers over two lists of tokens with the same lexemes. It is a statement about
errors as much as about values, so it holds of every text, also of one that is malformed.

Tokens with the same lexemes are the same when all of them are moved to one offset of one
text. So both readings are like a third one, of the tokens nowhere.
-/

namespace SmtSession

/-- Tokens end in the same way, wherever that is. -/
inductive Ending.Like : Ending → Ending → Prop
  | finished (offset offset' : Nat) : Like (.finished offset) (.finished offset')
  | unknownEscape (start stop start' stop' : Nat) :
    Like (.unknownEscape start stop) (.unknownEscape start' stop')
  | unclosedSymbol (start stop start' stop' : Nat) :
    Like (.unclosedSymbol start stop) (.unclosedSymbol start' stop')

theorem Ending.Like.symm {e e' : Ending} (like : e.Like e') : e'.Like e := by
  cases like with
  | finished => exact .finished _ _
  | unknownEscape => exact .unknownEscape _ _ _ _
  | unclosedSymbol => exact .unclosedSymbol _ _ _ _

namespace Reader

/-- The errors are the same, wherever they are blamed. -/
inductive Error.Like : Error → Error → Prop
  | malformed (cause : Cause) (pos pos' : Pos) :
    Like (.malformed cause pos) (.malformed cause pos')
  | unknownCommand (name : String) : Like (.unknownCommand name) (.unknownCommand name)

/-- Both readings give related values, or fail alike, with the same lexemes left. -/
inductive Outcome.Like (R : α → β → Prop) : Outcome α → Outcome β → Prop
  | done {a : α} {b : β} {rest rest' : List Token} (related : R a b)
      (left : rest.map Token.lexeme = rest'.map Token.lexeme) :
      Like R (.done a rest) (.done b rest')
  | failed {e e' : Error} {rest rest' : List Token} (errors : e.Like e')
      (left : rest.map Token.lexeme = rest'.map Token.lexeme) :
      Like R (.failed e rest) (.failed e' rest')

/-- **The readers do not see where tokens stand**: from tokens with the same lexemes, that
end in the same way, they read alike. -/
def Blind (R : α → β → Prop) (r : Reader α) (r' : Reader β) : Prop :=
  ∀ (input input' : Input) (ts ts' : List Token), input.ending.Like input'.ending →
    ts.map Token.lexeme = ts'.map Token.lexeme → Outcome.Like R (r input ts) (r' input' ts')

/-- The two have the same image. -/
abbrev Same (f : α → γ) (a a' : α) : Prop := f a = f a'

/-- The tokens are nowhere in particular: each offset stands for zero, in a text that is empty. -/
def Elsewhere.nowhere (here : Input) : Elsewhere here where
  there := ⟨⟨"", none⟩, here.ending.moved fun _ => 0⟩
  offset _ := 0
  more := []

namespace Elsewhere

variable {input input' : Input}

theorem ends_nowhere (here : Input) : (nowhere here).Ends := ⟨rfl, rfl⟩

theorem nowhere_there (like : input.ending.Like input'.ending) :
    (nowhere input).there = (nowhere input').there := by
  obtain ⟨source, ending⟩ := input
  obtain ⟨source', ending'⟩ := input'
  cases like <;> rfl

theorem nowhere_tokens (input : Input) (ts : List Token) :
    (nowhere input).tokens ts = (ts.map Token.lexeme).map fun l => ⟨l, 0, 0⟩ := by
  rw [tokens, List.map_map]
  exact List.append_nil _

theorem lexeme_of_nowhere {ts ts' : List Token}
    (same : (nowhere input).tokens ts = (nowhere input').tokens ts') :
    ts.map Token.lexeme = ts'.map Token.lexeme := by
  have lexemes := congrArg (List.map Token.lexeme) same
  rw [map_lexeme_tokens, map_lexeme_tokens] at lexemes
  exact List.append_cancel_right lexemes

theorem like_of_nowhere {e e' : Error}
    (same : (nowhere input).error e = (nowhere input').error e') : e.Like e' := by
  cases e <;> cases e' <;> cases same
  · exact .malformed _ _ _
  · exact .unknownCommand _

end Elsewhere

open Elsewhere (nowhere)

/-- Two readings that are one and the same nowhere are alike. -/
theorem Outcome.like_of_nowhere {input input' : Input} {g : α → γ} {f : α → δ}
    {o o' : Outcome α} {p : Outcome γ} (forgets : ∀ a a', g a = g a' → f a = f a')
    (here : Outcome.Moved (nowhere input) g o p) (there : Outcome.Moved (nowhere input') g o' p) :
    Outcome.Like (Same f) o o' := by
  cases here with
  | done a rest =>
    generalize is : Outcome.done (g a) ((nowhere input).tokens rest) = p at there
    cases there with
    | done a' rest' =>
      obtain ⟨value, left⟩ := Outcome.done.inj is
      exact .done (forgets _ _ value) (Elsewhere.lexeme_of_nowhere left)
    | failed e' rest' same => cases is.trans (same (Elsewhere.ends_nowhere _))
  | failed e rest same =>
    have is := same (Elsewhere.ends_nowhere _)
    cases there with
    | done a' rest' => cases is
    | failed e' rest' same' =>
      obtain ⟨error, left⟩ := Outcome.failed.inj (is.symm.trans (same' (Elsewhere.ends_nowhere _)))
      exact .failed (Elsewhere.like_of_nowhere error) (Elsewhere.lexeme_of_nowhere left)

/-- **The next command is read alike**, or refused alike. -/
theorem Blind.command? :
    Blind (Same (Option.map Command.bare)) Reader.command? Reader.command? := by
  intro input input' ts ts' ends same
  have here := Moves.command? (nowhere input) ts fun _ => Elsewhere.ends_nowhere _
  have there := Moves.command? (nowhere input') ts' fun _ => Elsewhere.ends_nowhere _
  rw [Elsewhere.nowhere_there ends, Elsewhere.nowhere_tokens, same,
    ← Elsewhere.nowhere_tokens input'] at here
  refine Outcome.like_of_nowhere (fun c c' image => ?_) here there
  have bare := congrArg (Option.map Command.bare) image
  have forgets : Command.bare ∘ Command.relocate (nowhere input).part = Command.bare :=
    funext Command.bare_relocate
  rwa [Option.map_map, Option.map_map, forgets] at bare

end Reader

end SmtSession
