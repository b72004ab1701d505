import SmtSession.Proofs.Reader.Sorts
import SmtSession.Proofs.Reader.Terms

/-!
# Positions do not matter to a dialect

**How a term is spelled does not depend on where it was read.** `spell_bare` says more:
without its positions a term is spelled as it was, or refused for the same cause, and only
the range that is blamed is gone. So terms that are the same without positions are spelled
alike (`spell_of_bare`).
-/

namespace SmtSession.Dialect

/-- The error without the range that it blames. -/
def Error.bare : Error → Error
  | .refused cause _ => .refused cause none
  | .misplaced part => .misplaced part

/-- Errors are changed behind each of two steps alike. -/
theorem mapError_bind {f : ε → δ} {x : Except ε α} {g : α → Except ε β} :
    (x >>= g).mapError f = x.mapError f >>= fun a => (g a).mapError f := by
  cases x <;> rfl

/-- What is given without errors changed is given with them changed. -/
theorem mapError_eq_ok {f : ε → δ} {x : Except ε α} {a : α} :
    x.mapError f = .ok a ↔ x = .ok a := by
  cases x with
  | error e => exact ⟨nofun, nofun⟩
  | ok b => exact ⟨fun same => congrArg _ (Except.ok.inj same), fun same => by rw [same]; rfl⟩

variable (d : Dialect)

/-! ## Sorts -/

mutual

theorem spellSort_bare : (s : SmtSort) →
    d.spellSort s.bare = (d.spellSort s).mapError Error.bare
  | .bool _ => rfl
  | .family name args indices _ => by
    have empty : (SmtSort.bareAll args).isEmpty = args.isEmpty := by cases args <;> rfl
    rw [SmtSort.bare, spellSort, spellSort, empty]
    split <;> rfl
  | .abbreviation _ _ _ _ => rfl
  | .function args result _ => by
    rw [SmtSort.bare, spellSort, spellSort]
    split
    · simp only [mapError_bind, spellSorts_bare args, spellSort_bare result]
      rfl
    · rfl
  | .parameter _ _ => rfl

theorem spellSorts_bare : (ss : List SmtSort) →
    d.spellSorts (SmtSort.bareAll ss) = (d.spellSorts ss).mapError Error.bare
  | [] => rfl
  | s :: ss => by
    simp only [SmtSort.bareAll, spellSorts, mapError_bind, spellSort_bare s, spellSorts_bare ss]
    rfl

end

theorem spellDeclarations_bare (decls : List Declaration) :
    d.spellDeclarations (decls.map Declaration.bare) =
      (d.spellDeclarations decls).mapError Error.bare := by
  induction decls with
  | nil => rfl
  | cons decl decls ih =>
    simp only [List.map_cons, spellDeclarations, spellDeclaration, Declaration.bare, mapError_bind,
      spellSort_bare, ih]
    rfl

/-! ## Terms -/

theorem literal_bare (text : String) (cause : Cause) (pos : Option Pos) :
    d.literal text cause none = (d.literal text cause pos).mapError Error.bare := by
  unfold literal
  split <;> rfl

mutual

/-- **Without its positions a term is spelled as it was**, or refused for the same cause. -/
theorem spell_bare : (t : Term) → d.spell t.bare = (d.spell t).mapError Error.bare
  | .numeral _ _ => rfl
  | .decimal text pos => d.literal_bare text _ pos
  | .hex digits pos => d.literal_bare ("#x" ++ digits) _ pos
  | .binary digits pos => d.literal_bare ("#b" ++ digits) _ pos
  | .string content pos => d.literal_bare (Text.Quoted.encode content) _ pos
  | .symbol _ => rfl
  | .keyword _ => rfl
  | .qualified _ _ _ => rfl
  | .indexed _ _ _ => rfl
  | .apply head args pos => by
    have count : (Term.bareAll args).length = args.length := by
      rw [Reader.termsBare_eq_map, List.length_map]
    have empty : (Term.bareAll args).isEmpty = args.isEmpty := by cases args <;> rfl
    rw [Term.bare, spell, spell, empty]
    split
    · rfl
    · rw [mapError_bind, spell_bare head]
      congr 1
      funext name
      rw [count]
      split
      · rfl
      · rw [mapError_bind, spellAll_bare args]
        rfl
  | .quantified q parameters body _ => by
    simp only [Term.bare, spell, mapError_bind, spellDeclarations_bare, spell_bare body]
    rfl
  | .letIn bindings body _ => by
    simp only [Term.bare, spell, mapError_bind, spellBindings_bare bindings, spell_bare body]
    rfl
  | .attributed term _ _ => spell_bare term
  | .error _ _ => rfl
  | .sort s => d.spellSort_bare s
  | .declaration _ => rfl
  | .binding (.mk _ _) => rfl
  | .attr (.mk _ none) => rfl
  | .attr (.mk _ (some _)) => rfl

theorem spellAll_bare : (ts : List Term) →
    d.spellAll (Term.bareAll ts) = (d.spellAll ts).mapError Error.bare
  | [] => rfl
  | t :: ts => by
    simp only [Term.bareAll, spellAll, mapError_bind, spell_bare t, spellAll_bare ts]
    rfl

theorem spellBindings_bare : (bs : List Binding) →
    d.spellBindings (Term.bareBindings bs) = (d.spellBindings bs).mapError Error.bare
  | [] => rfl
  | .mk s t :: bs => by
    simp only [Term.bareBindings, spellBindings, mapError_bind, spell_bare t,
      spellBindings_bare bs]
    rfl

end

variable {d}

/-- **Terms that are the same without positions are spelled alike.** -/
theorem spell_of_bare {t u : Term} {e : SExpr} (same : t.bare = u.bare)
    (spelled : d.spell u = .ok e) : d.spell t = .ok e := by
  rw [← mapError_eq_ok (f := Error.bare), ← spell_bare, same, spell_bare, mapError_eq_ok]
  exact spelled

end SmtSession.Dialect
